import TimingSweep.Sample

/-!
# The numerical order of doubles

What comparing says about sign and rank. The two zeros are one number in this order.

* `le_iff`, `lt_iff`: the order is that of the places, and without signs (`le_iff_rank_le`,
  `lt_iff_rank_lt`) that of the ranks;
* `zero_le_iff`, `zero_lt_iff`: the doubles from zero on and those above it;
* `isZero_of_le_of_not_lt`: a double from zero on that is not above it is one of the zeros.
-/

namespace TimingSweep

namespace Binary64

theorem le_iff {x y : Binary64} :
    le x y = true ↔ x.isNaN = false ∧ y.isNaN = false ∧ x.place ≤ y.place := by
  simp [le, and_assoc]

theorem lt_iff {x y : Binary64} :
    lt x y = true ↔ x.isNaN = false ∧ y.isNaN = false ∧ x.place < y.place := by
  simp [lt, and_assoc]

theorem le_refl {x : Binary64} (number : x.isNaN = false) : le x x = true :=
  le_iff.mpr ⟨number, number, Int.le_refl _⟩

theorem le_trans {x y z : Binary64} (h : le x y = true) (h' : le y z = true) :
    le x z = true := by
  obtain ⟨number, -, below⟩ := le_iff.mp h
  obtain ⟨-, number', below'⟩ := le_iff.mp h'
  exact le_iff.mpr ⟨number, number', Int.le_trans below below'⟩

theorem lt_of_lt_of_le {x y z : Binary64} (h : lt x y = true) (h' : le y z = true) :
    lt x z = true := by
  obtain ⟨number, -, below⟩ := lt_iff.mp h
  obtain ⟨-, number', below'⟩ := le_iff.mp h'
  exact lt_iff.mpr ⟨number, number', Int.lt_of_lt_of_le below below'⟩

theorem lt_of_le_of_lt {x y z : Binary64} (h : le x y = true) (h' : lt y z = true) :
    lt x z = true := by
  obtain ⟨number, -, below⟩ := le_iff.mp h
  obtain ⟨-, number', below'⟩ := lt_iff.mp h'
  exact lt_iff.mpr ⟨number, number', Int.lt_of_le_of_lt below below'⟩

section Plus

variable {x y : Binary64} (hx : x.isNaN = false) (hy : y.isNaN = false) (plus : x.negative = false)
  (plus' : y.negative = false)
include hx hy plus plus'

theorem le_iff_rank_le : le x y = true ↔ x.rank ≤ y.rank := by
  rw [le_iff, and_iff_right hx, and_iff_right hy]
  simp [place, plus, plus']

theorem lt_iff_rank_lt : lt x y = true ↔ x.rank < y.rank := by
  rw [lt_iff, and_iff_right hx, and_iff_right hy]
  simp [place, plus, plus']

end Plus

theorem zero_le_iff {x : Binary64} :
    le .zero x = true ↔ x.isNaN = false ∧ (x.negative = true → x.rank = 0) := by
  obtain ⟨negative, rank, _⟩ := x
  cases negative <;> simp [le, place, zero, signedZero, isNaN, infiniteRank]

theorem zero_lt_iff {x : Binary64} :
    lt .zero x = true ↔ x.isNaN = false ∧ x.negative = false ∧ 0 < x.rank := by
  obtain ⟨negative, rank, _⟩ := x
  cases negative <;> simp [lt, place, zero, signedZero, isNaN, infiniteRank]

theorem zero_le_of_zero_lt {x : Binary64} (h : lt .zero x = true) : le .zero x = true := by
  obtain ⟨number, plus, _⟩ := zero_lt_iff.mp h
  exact zero_le_iff.mpr ⟨number, by simp [plus]⟩

theorem isZero_of_le_of_not_lt {x : Binary64} (from_zero : le .zero x = true)
    (not_above : lt .zero x = false) : x.isZero = true := by
  obtain ⟨number, signed⟩ := zero_le_iff.mp from_zero
  have bounded : ¬ (x.isNaN = false ∧ x.negative = false ∧ 0 < x.rank) := by
    rw [← zero_lt_iff, not_above]
    exact Bool.false_ne_true
  have rank : x.rank = 0 := by
    cases sign : x.negative with
    | true => exact signed sign
    | false => exact Nat.eq_zero_of_not_pos fun above => bounded ⟨number, sign, above⟩
  simp [isZero, rank]

end Binary64

theorem Sample.isValid_iff {s : Sample} :
    s.isValid = true ↔ s.elapsed.isFinite = true ∧ Binary64.lt .zero s.elapsed = true := by
  simp [isValid, noMeasurement]

end TimingSweep
