import TimingSweep.Proofs.FixedPlaces

/-!
# The double nearest to a number

Which double a number is rounded to is told by distances alone: no double is nearer, and of two that
are equally near the one of even rank is taken. Infinity stands for the power of two beyond the
finite doubles, so that overflow is a case of the same rule.

* `nearest_or_tie`: rounding a quotient finds the rank nearest to it;
* `isNearest_ofRatio`: rounding with a sign finds the nearest double;
* `IsNearest.eq_of_negative_eq`: no other double with this sign is the nearest;
* `isNearest_iff_toBinary64`: a decimal is read as the double nearest to its value.
-/

namespace TimingSweep

/-! ## Distances -/

section Distances

variable (a b m : ℚ)

theorem sq_sub_sq_of_middle : (b - m) ^ 2 - (a - m) ^ 2 = (b - a) * (a + b - 2 * m) := by ring

/-- Of two numbers the nearer one is that on the near side of the middle between them. -/
theorem abs_sub_lt_abs_sub_iff : |a - m| < |b - m| ↔ 0 < (b - a) * (a + b - 2 * m) := by
  rw [← sq_lt_sq, ← sub_pos, sq_sub_sq_of_middle]

theorem abs_sub_le_abs_sub_iff : |a - m| ≤ |b - m| ↔ 0 ≤ (b - a) * (a + b - 2 * m) := by
  rw [← sq_le_sq, ← sub_nonneg, sq_sub_sq_of_middle]

/-- What lies between two equally distant numbers is nearer than they are. -/
theorem abs_sub_lt_of_between {a b m : ℚ} {c : ℚ} (above : a < c) (below : c < b)
    (tie : |a - m| = |b - m|) : |c - m| < |a - m| := by
  have middle : a + b = 2 * m := by
    rcases abs_eq_abs.mp tie with same | opposite
    · linarith
    · linarith
  rw [abs_sub_lt_abs_sub_iff]
  apply mul_pos_of_neg_of_neg
  · linarith
  · linarith

end Distances

section Sides

variable {a b num den : Nat} (positive : 0 < den)
include positive

theorem middle_eq_div :
    (a : ℚ) + b - 2 * (num / den) = (((a + b) * den : Nat) - (2 * num : Nat) : ℚ) / den := by
  have nonzero : (den : ℚ) ≠ 0 := by exact_mod_cast positive.ne'
  push_cast
  field_simp

/-- A quotient on one side of the middle between two whole numbers is nearer to the one there. -/
theorem nearer_of_side
    (side : a < b ∧ 2 * num < (a + b) * den ∨ b < a ∧ (a + b) * den < 2 * num) :
    |(a : ℚ) - num / den| < |(b : ℚ) - num / den| := by
  have den_pos : (0 : ℚ) < den := by exact_mod_cast positive
  rw [abs_sub_lt_abs_sub_iff, middle_eq_div positive]
  rcases side with ⟨less, below⟩ | ⟨more, above⟩
  · have order : (0 : ℚ) < b - a := sub_pos.mpr (by exact_mod_cast less)
    exact mul_pos order (div_pos (sub_pos.mpr (by exact_mod_cast below)) den_pos)
  · have order : (b - a : ℚ) < 0 := sub_neg.mpr (by exact_mod_cast more)
    apply mul_pos_of_neg_of_neg order
    exact div_neg_of_neg_of_pos (sub_neg.mpr (by exact_mod_cast above)) den_pos

/-- In the middle between two whole numbers a quotient is as near to either. -/
theorem near_of_side
    (side : a < b ∧ 2 * num ≤ (a + b) * den ∨ b < a ∧ (a + b) * den ≤ 2 * num) :
    |(a : ℚ) - num / den| ≤ |(b : ℚ) - num / den| := by
  by_cases tie : 2 * num = (a + b) * den
  · rw [abs_sub_le_abs_sub_iff, middle_eq_div positive, tie, sub_self, zero_div, mul_zero]
  · exact (nearer_of_side positive (by omega)).le

end Sides

namespace Binary64

variable {num den rank : Nat}

/-- No rank is nearer than the one found by rounding, and none is as near unless that is even. -/
theorem nearest_or_tie (positive : 0 < den) (bound : rank ≤ infiniteRank)
    (other : rank ≠ nearestRank num den) :
    |(units (nearestRank num den) : ℚ) - num / den| < |(units rank : ℚ) - num / den| ∨
      |(units (nearestRank num den) : ℚ) - num / den| ≤ |(units rank : ℚ) - num / den| ∧
        nearestRank num den % 2 = 0 := by
  have found := nearestRank_le_infinite num den
  rcases Nat.lt_or_gt_of_ne other with below | above
  · have reaches := (le_nearestRank_iff positive (by omega) found).mp (Nat.le_refl _)
    generalize nearestRank num den = nearest at *
    have order : units rank < units nearest := units_lt below
    have middle : (units nearest + units rank) * den ≤ midpoint nearest * den := by
      have lower : units rank ≤ units (nearest - 1) := units_le (by omega)
      apply Nat.mul_le_mul_right
      rw [midpoint]
      omega
    rcases reaches with beyond | ⟨tie, even⟩
    · exact Or.inl (nearer_of_side positive (Or.inr ⟨order, by omega⟩))
    · exact Or.inr ⟨near_of_side positive (Or.inr ⟨order, by omega⟩), even⟩
  · have missed : ¬ Reaches num den (nearestRank num den + 1) := by
      rw [← le_nearestRank_iff positive (Nat.succ_pos _) (by omega)]
      omega
    generalize nearestRank num den = nearest at *
    have order : units nearest < units rank := units_lt above
    have middle : midpoint (nearest + 1) * den ≤ (units nearest + units rank) * den := by
      have upper : units (nearest + 1) ≤ units rank := units_le above
      apply Nat.mul_le_mul_right
      rw [midpoint, Nat.add_sub_cancel]
      omega
    unfold Reaches at missed
    by_cases tie : midpoint (nearest + 1) * den = 2 * num
    · exact Or.inr ⟨near_of_side positive (Or.inl ⟨order, by omega⟩), by omega⟩
    · exact Or.inl (nearer_of_side positive (Or.inl ⟨order, by omega⟩))

/-! ## Exact values -/

theorem unitsInOne_pos_rat : (0 : ℚ) < unitsInOne := by exact_mod_cast unitsInOne_pos

theorem exact_of_plus {x : Binary64} (plus : x.negative = false) :
    x.exact = units x.rank / unitsInOne := by
  rw [exact_eq, plus, if_neg Bool.false_ne_true]

theorem exact_neg (x : Binary64) : (-x).exact = -x.exact := by
  show (⟨!x.negative, x.rank, x.rank_lt⟩ : Binary64).exact = _
  rw [exact_eq, exact_eq]
  generalize (units x.rank / unitsInOne : ℚ) = magnitude
  cases x.negative <;> simp

theorem units_zero : units 0 = 0 := by decide

theorem exact_signedZero (negative : Bool) : (signedZero negative).exact = 0 := by
  show (⟨negative, 0, by decide⟩ : Binary64).exact = 0
  rw [exact_eq, units_zero, Nat.cast_zero, zero_div, neg_zero, ite_self]

theorem exact_of_minus_le {x : Binary64} (minus : x.negative = true) : x.exact ≤ 0 := by
  rw [exact_eq, minus, if_pos rfl]
  have magnitude : (0 : ℚ) ≤ units x.rank / unitsInOne := by positivity
  linarith

/-- With one sign, magnitudes ascend with the ranks. -/
theorem exact_lt_of_plus {x y : Binary64} (hx : x.negative = false) (hy : y.negative = false)
    (h : x.rank < y.rank) : x.exact < y.exact := by
  rw [exact_of_plus hx, exact_of_plus hy, div_lt_div_iff_of_pos_right unitsInOne_pos_rat]
  exact_mod_cast units_lt h

/-- The comparison with zero goes by the number, so that it holds of both zeros. -/
theorem le_zero_iff {x : Binary64} (number : x.isNaN = false) :
    le zero x = true ↔ 0 ≤ x.exact := by
  have zero_number : zero.isNaN = false := rfl
  have place_zero : zero.place = 0 := rfl
  rw [le, number, zero_number, place_zero, Bool.not_false, Bool.true_and, Bool.true_and,
    decide_eq_true_eq]
  cases sign : x.negative with
  | false =>
    have magnitude : (0 : ℚ) ≤ units x.rank / unitsInOne := by positivity
    rw [exact_of_plus sign]
    exact iff_of_true (by simp [place, sign]) magnitude
  | true =>
    constructor
    · intro nonneg
      have zero : x.rank = 0 := by
        simp only [place, sign, if_true] at nonneg
        omega
      rw [exact_eq, zero, units_zero, Nat.cast_zero, zero_div, neg_zero, ite_self]
    · intro nonneg
      have zero : x.rank = 0 := by
        apply Nat.eq_zero_of_not_pos
        intro positive
        have unitsPos : (0 : ℚ) < units x.rank := by exact_mod_cast units_pos_iff.mpr positive
        have := div_pos unitsPos unitsInOne_pos_rat
        rw [exact_eq, sign, if_pos rfl] at nonneg
        linarith
      simp [place, zero]

/-! ## The nearest double -/

/-- The double nearest to a number, ties to even. Infinity stands for `2 ^ 1024`, and what is no
number is not near to anything. -/
structure IsNearest (q : ℚ) (x : Binary64) : Prop where
  number : x.isNaN = false
  nearest : ∀ y : Binary64, y.isNaN = false → |x.exact - q| ≤ |y.exact - q|
  even : ∀ y : Binary64, y.isNaN = false → y.exact ≠ x.exact →
    |x.exact - q| = |y.exact - q| → x.rank % 2 = 0

/-- The opposite of the nearest double is nearest to the opposite number. -/
theorem IsNearest.neg {q : ℚ} {x : Binary64} (h : IsNearest q x) : IsNearest (-q) (-x) := by
  have turned : ∀ y : Binary64, |y.exact - -q| = |(-y).exact - q| := fun y => by
    rw [exact_neg, ← abs_neg]
    congr 1
    ring
  have back : |(-x).exact - -q| = |x.exact - q| := by rw [turned, neg_neg]
  refine ⟨h.number, fun y number => ?_, fun y number differ tie => ?_⟩
  · rw [back, turned]
    exact h.nearest (-y) number
  · rw [back, turned] at tie
    refine h.even (-y) number (fun same => differ ?_) tie
    rw [exact_neg, ← same, ← exact_neg, neg_neg]

/-- Distances from a quotient are distances from it in units. -/
theorem abs_exact_sub (num den : Nat) {x : Binary64} (plus : x.negative = false) :
    |x.exact - num / den| =
      |(units x.rank : ℚ) - (num * unitsInOne : Nat) / den| / unitsInOne := by
  have one := unitsInOne_pos_rat
  have split : x.exact - num / den =
      ((units x.rank : ℚ) - (num * unitsInOne : Nat) / den) / unitsInOne := by
    rw [exact_of_plus plus, Nat.cast_mul, sub_div, mul_div_right_comm,
      mul_div_cancel_right₀ _ one.ne']
  rw [split, abs_div, abs_of_pos one]

section Rounding

variable (num) (positive : 0 < den)
include positive

theorem nearest_or_tie_of_plus {y : Binary64} (plus : y.negative = false)
    (number : y.isNaN = false) (other : y.rank ≠ (ofRatio false num den).rank) :
    |(ofRatio false num den).exact - num / den| < |y.exact - num / den| ∨
      |(ofRatio false num den).exact - num / den| ≤ |y.exact - num / den| ∧
        (ofRatio false num den).rank % 2 = 0 := by
  rw [abs_exact_sub num _ rfl, abs_exact_sub num _ plus,
    div_lt_div_iff_of_pos_right unitsInOne_pos_rat, div_le_div_iff_of_pos_right unitsInOne_pos_rat]
  exact nearest_or_tie positive (isNumber_iff.mp number) other

/-- Among the doubles from zero on, one is at least as near to a quotient as any given double. -/
theorem exists_plus_near (y : Binary64) (number : y.isNaN = false) :
    ∃ z : Binary64, z.negative = false ∧ z.isNaN = false ∧
      |z.exact - num / den| ≤ |y.exact - num / den| ∧ (z = y ∨ z.rank = 0) := by
  cases sign : y.negative with
  | false => exact ⟨y, sign, number, le_rfl, Or.inl rfl⟩
  | true =>
    refine ⟨zero, rfl, rfl, ?_, Or.inr rfl⟩
    have below := exact_of_minus_le sign
    have quotient : (0 : ℚ) ≤ num / den := by positivity
    rw [zero, exact_signedZero, zero_sub, abs_neg, abs_of_nonneg quotient,
      abs_of_nonpos (by linarith)]
    linarith

theorem isNearest_of_plus : IsNearest (num / den) (ofRatio false num den) := by
  have bound := nearestRank_le_infinite (num * unitsInOne) den
  refine ⟨isNumber_iff.mpr bound, fun y number => ?_, fun y number differ tie => ?_⟩
  · obtain ⟨z, plus, isNumber, near, -⟩ := exists_plus_near num positive y number
    by_cases same : z.rank = (ofRatio false num den).rank
    · rw [exact_of_plus plus, same] at near
      rwa [exact_of_plus rfl]
    · rcases nearest_or_tie_of_plus num positive plus isNumber same with less | ⟨atMost, -⟩
      · exact less.le.trans near
      · exact atMost.trans near
  · obtain ⟨z, plus, isNumber, near, which⟩ := exists_plus_near num positive y number
    by_cases same : z.rank = (ofRatio false num den).rank
    · rcases which with rfl | tie
      · refine absurd ?_ differ
        rw [exact_of_plus plus, exact_of_plus rfl, same]
      · rw [← same, tie]
    · rcases nearest_or_tie_of_plus num positive plus isNumber same with less | ⟨-, even⟩
      · exact absurd (less.trans_le near) (by rw [tie]; exact lt_irrefl _)
      · exact even

/-- Rounding a quotient with a sign finds the nearest double. -/
theorem isNearest_ofRatio (negative : Bool) :
    IsNearest (if negative then -(num / den) else num / den) (ofRatio negative num den) := by
  have magnitude := isNearest_of_plus num positive
  cases negative with
  | false => exact magnitude
  | true => exact magnitude.neg

end Rounding

theorem IsNearest.rank_le_of_plus {q : ℚ} {x y : Binary64} (hx : IsNearest q x)
    (hy : IsNearest q y) (x_plus : x.negative = false) (y_plus : y.negative = false) :
    y.rank ≤ x.rank := by
  apply Nat.le_of_not_lt
  intro less
  have apart := exact_lt_of_plus x_plus y_plus less
  have tie : |x.exact - q| = |y.exact - q| :=
    le_antisymm (hx.nearest y hy.number) (hy.nearest x hx.number)
  have x_even := hx.even y hy.number apart.ne' tie
  have y_even := hy.even x hx.number apart.ne tie.symm
  -- Between two even ranks there is another, and it is nearer than both.
  let between : Binary64 := ⟨false, x.rank + 1, by have := y.rank_lt; omega⟩
  have number : between.isNaN = false := by
    have bound := isNumber_iff.mp hy.number
    rw [isNumber_iff]
    show x.rank + 1 ≤ infiniteRank
    omega
  have above : x.exact < between.exact := exact_lt_of_plus x_plus rfl (Nat.lt_succ_self _)
  have below : between.exact < y.exact := by
    apply exact_lt_of_plus rfl y_plus
    show x.rank + 1 < y.rank
    omega
  have nearer := abs_sub_lt_of_between above below tie
  have nearest := hx.nearest between number
  linarith

/-- Only the sign of a zero is left open. -/
theorem IsNearest.eq_of_negative_eq {q : ℚ} {x y : Binary64} (hx : IsNearest q x)
    (hy : IsNearest q y) (sign : x.negative = y.negative) : x = y := by
  have ranks : x.rank = y.rank := by
    cases own : x.negative with
    | false =>
      have other := sign ▸ own
      exact Nat.le_antisymm (hy.rank_le_of_plus hx other own) (hx.rank_le_of_plus hy own other)
    | true =>
      have other := sign ▸ own
      have turned : ∀ z : Binary64, z.negative = true → (-z).negative = false := by
        intro z minus
        show (!z.negative) = false
        rw [minus, Bool.not_true]
      show (-x).rank = (-y).rank
      exact Nat.le_antisymm (hy.neg.rank_le_of_plus hx.neg (turned y other) (turned x own))
        (hx.neg.rank_le_of_plus hy.neg (turned x own) (turned y other))
  cases x
  cases y
  simp_all

end Binary64

namespace Decimal

open Binary64

theorem value_eq_div (negative : Bool) (d : Decimal) :
    let num : Nat := d.significand * 10 ^ d.exponent.toNat
    let den : Nat := 10 ^ (-d.exponent).toNat
    d.value negative = if negative then -(num / den : ℚ) else num / den := by
  have power : (10 : ℚ) ^ d.exponent =
      10 ^ d.exponent.toNat / 10 ^ (-d.exponent).toNat := by
    rw [← zpow_natCast, ← zpow_natCast, ← zpow_sub₀ (by norm_num)]
    congr 1
    omega
  simp only [value, power]
  push_cast
  rw [mul_div_assoc]

/-- A decimal is read as the double nearest to its value, with its sign. -/
theorem isNearest_toBinary64 (negative : Bool) (d : Decimal) :
    IsNearest (d.value negative) (d.toBinary64 negative) := by
  have den_pos : 0 < 10 ^ (-d.exponent).toNat := Nat.pow_pos (by decide)
  rw [toBinary64_eq_ofRatio, value_eq_div]
  exact isNearest_ofRatio _ den_pos negative

theorem negative_toBinary64 (negative : Bool) (d : Decimal) :
    (d.toBinary64 negative).negative = negative := by
  rw [toBinary64_eq_ofRatio]
  rfl

theorem isNearest_iff_toBinary64 {negative : Bool} {d : Decimal} {x : Binary64} :
    IsNearest (d.value negative) x ∧ x.negative = negative ↔ d.toBinary64 negative = x := by
  constructor
  · rintro ⟨nearest, sign⟩
    exact (d.isNearest_toBinary64 negative).eq_of_negative_eq nearest
      ((d.negative_toBinary64 negative).trans sign.symm)
  · rintro rfl
    exact ⟨d.isNearest_toBinary64 negative, d.negative_toBinary64 negative⟩

end Decimal

end TimingSweep
