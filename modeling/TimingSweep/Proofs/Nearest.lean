import TimingSweep.Number.Binary64

/-!
# The nearest double

Rounding takes a quotient of units to the last rank that it reaches: the one whose midpoint to the
rank before lies below the quotient, or at it if the rank is even. All that is used of rounding
follows from this rule.

* `units_lt`: magnitudes ascend with the ranks;
* `le_nearestRank_iff`: the rule;
* `nearestRank_mono`, `nearestRank_congr`: only the quotient matters, and larger ones are not
  rounded to smaller ranks;
* `nearestRank_units`: a magnitude that a rank has is kept;
* `nearestRank_eq_infinite_iff`: which quotients overflow.
-/

namespace TimingSweep

/-- Between two neighbours of equal distance the even one is chosen. -/
theorem roundHalfEven_even {num den : Nat} (positive : 0 < den)
    (tie : 2 * (den * roundHalfEven num den) = 2 * num + den ∨
      2 * num = 2 * (den * roundHalfEven num den) + den) :
    roundHalfEven num den % 2 = 0 := by
  have split := Nat.div_add_mod num den
  have rest := Nat.mod_lt num positive
  revert tie
  simp only [roundHalfEven]
  split
  · omega
  · split
    · simp only [Nat.mul_add]
      omega
    · omega

namespace Binary64

theorem units_eq {shift digits : Nat}
    (normal : shift = 0 ∧ digits ≤ 2 ^ 53 ∨ 2 ^ 52 ≤ digits ∧ digits ≤ 2 ^ 53) :
    units (shift * 2 ^ 52 + digits) = digits * 2 ^ shift := by
  by_cases top : digits = 2 ^ 53
  · have next : (shift * 2 ^ 52 + digits) / 2 ^ 52 - 1 = shift + 1 := by omega
    simp only [units, next, Nat.pow_succ]
    have : shift * 2 ^ 52 + digits - (shift + 1) * 2 ^ 52 = 2 ^ 52 := by omega
    rw [this, top, ← Nat.mul_assoc, Nat.mul_right_comm]
  · have same : (shift * 2 ^ 52 + digits) / 2 ^ 52 - 1 = shift := by omega
    simp only [units, same, Nat.add_sub_cancel_left]

/-- Every rank has the digits of its magnitude behind the place of the last of them. -/
theorem exists_digits (rank : Nat) : ∃ shift digits, rank = shift * 2 ^ 52 + digits ∧
    (shift = 0 ∧ digits < 2 ^ 53 ∨ 2 ^ 52 ≤ digits ∧ digits < 2 ^ 53) := by
  refine ⟨rank / 2 ^ 52 - 1, rank - (rank / 2 ^ 52 - 1) * 2 ^ 52, ?_, ?_⟩ <;> omega

theorem units_lt_succ (rank : Nat) : units rank < units (rank + 1) := by
  obtain ⟨shift, digits, rfl, normal⟩ := exists_digits rank
  rw [Nat.add_assoc, units_eq (by omega), units_eq (by omega)]
  exact Nat.mul_lt_mul_of_pos_right (by omega) (Nat.two_pow_pos shift)

theorem units_lt {a b : Nat} (h : a < b) : units a < units b := by
  induction h with
  | refl => exact units_lt_succ a
  | step _ ih => exact Nat.lt_trans ih (units_lt_succ _)

theorem units_le {a b : Nat} (h : a ≤ b) : units a ≤ units b := by
  rcases Nat.eq_or_lt_of_le h with rfl | less
  · exact Nat.le_refl _
  · exact Nat.le_of_lt (units_lt less)

theorem units_pos_iff {rank : Nat} : 0 < units rank ↔ 0 < rank := by
  have zero : units 0 = 0 := by decide
  constructor
  · intro positive
    apply Nat.pos_of_ne_zero
    rintro rfl
    omega
  · intro positive
    have := units_lt positive
    omega

/-- The ranks of the powers of two from `2 ^ -1022` on. -/
theorem units_power (k : Nat) : units ((k + 1) * 2 ^ 52) = 2 ^ (52 + k) := by
  rw [Nat.succ_mul, units_eq (by omega), ← Nat.pow_add]

/-- Twice the magnitude half way between a rank and the one before it. -/
def midpoint (rank : Nat) : Nat := units (rank - 1) + units rank

/-- A quotient of units reaches a rank if it lies above the midpoint before it, or at that midpoint
if the rank is even. -/
def Reaches (num den rank : Nat) : Prop :=
  midpoint rank * den < 2 * num ∨ midpoint rank * den = 2 * num ∧ rank % 2 = 0

theorem Reaches.mono {num den a b : Nat} (positive : 0 < den) (h : a ≤ b) (start : 0 < a)
    (reaches : Reaches num den b) : Reaches num den a := by
  rcases Nat.eq_or_lt_of_le h with rfl | less
  · exact reaches
  · have lower : midpoint a < midpoint b :=
      Nat.add_lt_add_of_le_of_lt (units_le (by omega)) (units_lt less)
    have scaled := Nat.mul_lt_mul_of_pos_right lower positive
    left
    rcases reaches with above | ⟨at_midpoint, -⟩ <;> omega

/-- The rank nearest to a quotient, if ranks had no end. -/
def unboundedRank (num den : Nat) : Nat :=
  let shift := Nat.log2 (num / den) - 52
  shift * 2 ^ 52 + roundHalfEven num (den * 2 ^ shift)

theorem nearestRank_eq (num den : Nat) :
    nearestRank num den = Nat.min infiniteRank (unboundedRank num den) := rfl

theorem midpoint_of_normal {shift digits : Nat}
    (normal : shift = 0 ∧ 0 < digits ∧ digits ≤ 2 ^ 53 ∨ 2 ^ 52 < digits ∧ digits ≤ 2 ^ 53) :
    midpoint (shift * 2 ^ 52 + digits) = (2 * digits - 1) * 2 ^ shift := by
  have before : shift * 2 ^ 52 + digits - 1 = shift * 2 ^ 52 + (digits - 1) := by omega
  rw [midpoint, before, units_eq (by omega), units_eq (by omega), ← Nat.add_mul]
  congr 1
  omega

/-- The places that rounding drops leave 53 digits at most, and 53 if any is dropped. -/
theorem shift_bounds (num : Nat) {den shift : Nat} (positive : 0 < den)
    (chosen : Nat.log2 (num / den) - 52 = shift) :
    num < 2 ^ 53 * (den * 2 ^ shift) ∧ (shift = 0 ∨ 2 ^ 52 * (den * 2 ^ shift) ≤ num) := by
  have scaled : ∀ k, 2 ^ k * (den * 2 ^ shift) = 2 ^ (k + shift) * den := fun k => by
    rw [Nat.mul_comm den, ← Nat.mul_assoc, ← Nat.pow_add]
  rw [scaled, scaled]
  constructor
  · have small : num / den < 2 ^ (53 + shift) :=
      Nat.lt_of_lt_of_le Nat.lt_log2_self (Nat.pow_le_pow_right (by decide) (by omega))
    exact (Nat.div_lt_iff_lt_mul positive).mp small
  · rcases Nat.eq_zero_or_pos shift with unshifted | shifted
    · exact Or.inl unshifted
    · right
      have nonzero : num / den ≠ 0 := by
        intro zero
        rw [zero, Nat.log2_zero] at chosen
        omega
      have large : 2 ^ (52 + shift) ≤ num / den := (Nat.le_log2 nonzero).mp (by omega)
      exact (Nat.le_div_iff_mul_le positive).mp large

/-- The digits that rounding keeps: the integer nearest to the quotient scaled down. -/
structure Digits (num scale shift digits : Nat) : Prop where
  scale_pos : 0 < scale
  upper : num < 2 ^ 53 * scale
  lower : shift = 0 ∨ 2 ^ 52 * scale ≤ num
  le : 2 * (scale * digits) ≤ 2 * num + scale
  ge : 2 * num ≤ 2 * (scale * digits) + scale
  even : 2 * (scale * digits) = 2 * num + scale ∨ 2 * num = 2 * (scale * digits) + scale →
    digits % 2 = 0

theorem Digits.bounds {num scale shift digits : Nat} (d : Digits num scale shift digits) :
    digits ≤ 2 ^ 53 ∧ (shift = 0 ∨ 2 ^ 52 ≤ digits) := by
  obtain ⟨scale_pos, upper, lower, le, ge, -⟩ := d
  constructor
  · apply Nat.le_of_not_lt
    intro more
    have := Nat.mul_le_mul_left scale more
    omega
  · refine lower.imp_right fun large => ?_
    apply Nat.le_of_not_lt
    intro fewer
    have := Nat.mul_le_mul_left scale fewer
    rw [Nat.mul_succ] at this
    omega

theorem exists_unboundedRank (num : Nat) {den : Nat} (positive : 0 < den) : ∃ shift digits,
    unboundedRank num den = shift * 2 ^ 52 + digits ∧
      Digits num (den * 2 ^ shift) shift digits := by
  refine ⟨_, _, rfl, ?_⟩
  have scale_pos : ∀ shift, 0 < den * 2 ^ shift := fun shift =>
    Nat.mul_pos positive (Nat.two_pow_pos shift)
  obtain ⟨upper, lower⟩ := shift_bounds num positive rfl
  exact ⟨scale_pos _, upper, lower, roundHalfEven_le .., le_roundHalfEven _ _ (scale_pos _),
    roundHalfEven_even (scale_pos _)⟩

theorem reaches_unboundedRank {num den : Nat} (positive : 0 < den)
    (start : 0 < unboundedRank num den) : Reaches num den (unboundedRank num den) := by
  obtain ⟨shift, digits, rank, d⟩ := exists_unboundedRank num positive
  obtain ⟨most, least⟩ := d.bounds
  rw [rank] at start ⊢
  unfold Reaches
  by_cases first : 0 < shift ∧ digits = 2 ^ 52
  · -- The rank before the first of its kind is half as far away as the one behind it.
    obtain ⟨power, rfl⟩ := first
    obtain ⟨less, rfl⟩ : ∃ less, shift = less + 1 := ⟨shift - 1, by omega⟩
    have before : (less + 1) * 2 ^ 52 + 2 ^ 52 - 1 = less * 2 ^ 52 + (2 ^ 53 - 1) := by omega
    have doubled : 2 ^ 52 * 2 ^ (less + 1) = 2 ^ 53 * 2 ^ less := by
      rw [← Nat.pow_add, ← Nat.pow_add]
      congr 1
      omega
    have half : den * 2 ^ (less + 1) = 2 * (den * 2 ^ less) := by
      rw [Nat.pow_succ, Nat.mul_comm _ 2, Nat.mul_left_comm]
    have large := d.lower.resolve_left (by omega)
    have scale_pos := d.scale_pos
    rw [midpoint, before, units_eq (by omega), units_eq (by omega), doubled, ← Nat.add_mul,
      Nat.mul_assoc, Nat.mul_comm _ den]
    omega
  · have normal : shift = 0 ∧ 0 < digits ∧ digits ≤ 2 ^ 53 ∨
        2 ^ 52 < digits ∧ digits ≤ 2 ^ 53 := by omega
    rw [midpoint_of_normal normal, Nat.mul_assoc, Nat.mul_comm _ den]
    have scaled : (2 * digits - 1) * (den * 2 ^ shift) + den * 2 ^ shift =
        2 * (den * 2 ^ shift * digits) := by
      rw [← Nat.succ_mul, Nat.mul_comm (_ + 1)]
      have : 2 * digits - 1 + 1 = 2 * digits := by omega
      rw [this, Nat.mul_left_comm]
    have error := d.le
    have even := d.even
    omega

theorem not_reaches_succ {num den : Nat} (positive : 0 < den) :
    ¬ Reaches num den (unboundedRank num den + 1) := by
  obtain ⟨shift, digits, rank, d⟩ := exists_unboundedRank num positive
  obtain ⟨most, least⟩ := d.bounds
  rw [rank]
  unfold Reaches
  by_cases last : digits = 2 ^ 53
  · subst last
    have far : 2 * (2 ^ 53 * 2 ^ shift) ≤ midpoint (shift * 2 ^ 52 + 2 ^ 53 + 1) := by
      have := units_lt_succ (shift * 2 ^ 52 + 2 ^ 53)
      rw [midpoint, Nat.add_sub_cancel, ← units_eq (by omega)]
      omega
    have scaled := Nat.mul_le_mul_right den far
    have upper := d.upper
    have : 2 * (2 ^ 53 * 2 ^ shift) * den = 2 * (2 ^ 53 * (den * 2 ^ shift)) := by
      rw [Nat.mul_assoc, Nat.mul_assoc, Nat.mul_comm den]
    omega
  · have normal : shift = 0 ∧ 0 < digits + 1 ∧ digits + 1 ≤ 2 ^ 53 ∨
        2 ^ 52 < digits + 1 ∧ digits + 1 ≤ 2 ^ 53 := by omega
    rw [Nat.add_assoc, midpoint_of_normal normal, Nat.mul_assoc, Nat.mul_comm _ den]
    have scaled : (2 * (digits + 1) - 1) * (den * 2 ^ shift) =
        2 * (den * 2 ^ shift * digits) + den * 2 ^ shift := by
      have : 2 * (digits + 1) - 1 = 2 * digits + 1 := by omega
      rw [this, Nat.succ_mul, Nat.mul_comm (2 * digits), Nat.mul_left_comm]
    have error := d.ge
    have even := d.even
    omega

/-- Rounding takes a quotient to the last rank that it reaches. -/
theorem le_nearestRank_iff {num den rank : Nat} (positive : 0 < den) (start : 0 < rank)
    (bound : rank ≤ infiniteRank) : rank ≤ nearestRank num den ↔ Reaches num den rank := by
  rw [nearestRank_eq]
  have unbounded : rank ≤ Nat.min infiniteRank (unboundedRank num den) ↔
      rank ≤ unboundedRank num den := by
    rw [Nat.le_min, and_iff_right bound]
  rw [unbounded]
  constructor
  · intro h
    exact (reaches_unboundedRank positive (by omega)).mono positive h start
  · intro reaches
    apply Nat.le_of_not_lt
    intro beyond
    exact not_reaches_succ positive (reaches.mono positive beyond (by omega))

theorem nearestRank_le_infinite (num den : Nat) : nearestRank num den ≤ infiniteRank :=
  Nat.min_le_left ..

/-- A larger quotient has no smaller rank. -/
theorem nearestRank_mono {num den num' den' : Nat} (positive : 0 < den) (positive' : 0 < den')
    (h : num * den' ≤ num' * den) : nearestRank num den ≤ nearestRank num' den' := by
  rcases Nat.eq_zero_or_pos (nearestRank num den) with zero | ranked
  · omega
  · have bound := nearestRank_le_infinite num den
    have reaches := (le_nearestRank_iff positive ranked bound).mp (Nat.le_refl _)
    apply (le_nearestRank_iff positive' ranked bound).mpr
    generalize nearestRank num den = rank at *
    -- Both sides are brought over the divisor `den * den'`.
    have swap : midpoint rank * den' * den = midpoint rank * den * den' := Nat.mul_right_comm ..
    have left : 2 * num * den' = 2 * (num * den') := Nat.mul_assoc ..
    have right : 2 * num' * den = 2 * (num' * den) := Nat.mul_assoc ..
    rcases reaches with above | ⟨tie, even⟩
    · have scaled := Nat.mul_lt_mul_of_pos_right above positive'
      exact Or.inl (Nat.lt_of_mul_lt_mul_right (a := den) (by omega))
    · have scaled : midpoint rank * den * den' = 2 * num * den' := congrArg (· * den') tie
      have most : midpoint rank * den' ≤ 2 * num' :=
        Nat.le_of_mul_le_mul_right (by omega) positive
      rcases Nat.eq_or_lt_of_le most with equal | less
      · exact Or.inr ⟨equal, even⟩
      · exact Or.inl less

theorem nearestRank_congr {num den num' den' : Nat} (positive : 0 < den) (positive' : 0 < den')
    (h : num * den' = num' * den) : nearestRank num den = nearestRank num' den' :=
  Nat.le_antisymm (nearestRank_mono positive positive' (Nat.le_of_eq h))
    (nearestRank_mono positive' positive (Nat.le_of_eq h.symm))

/-- A magnitude that a rank has is rounded to that rank. -/
theorem nearestRank_units {rank den : Nat} (positive : 0 < den) (bound : rank ≤ infiniteRank) :
    nearestRank (units rank * den) den = rank := by
  apply Nat.le_antisymm
  · apply Nat.le_of_not_lt
    intro beyond
    have reaches : Reaches (units rank * den) den (rank + 1) :=
      (le_nearestRank_iff positive (Nat.succ_pos rank)
        (Nat.le_trans beyond (nearestRank_le_infinite ..))).mp beyond
    have further : 2 * units rank < midpoint (rank + 1) := by
      have := units_lt_succ rank
      rw [midpoint, Nat.add_sub_cancel]
      omega
    have scaled := Nat.mul_lt_mul_of_pos_right further positive
    rw [Nat.mul_assoc] at scaled
    unfold Reaches at reaches
    omega
  · rcases Nat.eq_zero_or_pos rank with rfl | start
    · exact Nat.zero_le _
    · apply (le_nearestRank_iff positive start bound).mpr
      have nearer : midpoint rank < 2 * units rank := by
        have := units_lt (a := rank - 1) (b := rank) (by omega)
        rw [midpoint]
        omega
      have scaled := Nat.mul_lt_mul_of_pos_right nearer positive
      rw [Nat.mul_assoc] at scaled
      exact Or.inl scaled

theorem le_nearestRank {rank num den : Nat} (positive : 0 < den) (bound : rank ≤ infiniteRank)
    (h : units rank * den ≤ num) : rank ≤ nearestRank num den := by
  rw [← nearestRank_units positive bound]
  exact nearestRank_mono positive positive (Nat.mul_le_mul_right den h)

theorem nearestRank_le_of_le_units {rank num den : Nat} (positive : 0 < den)
    (bound : rank ≤ infiniteRank) (h : num ≤ units rank * den) : nearestRank num den ≤ rank := by
  rw [← nearestRank_units positive bound]
  exact nearestRank_mono positive positive (Nat.mul_le_mul_right den h)

theorem nearestRank_pos_iff {num den : Nat} (positive : 0 < den) :
    0 < nearestRank num den ↔ den < 2 * num := by
  have first : midpoint 1 = 1 := by decide
  show 1 ≤ nearestRank num den ↔ den < 2 * num
  rw [le_nearestRank_iff positive Nat.one_pos (by decide), Reaches, first]
  omega

/-- The quotients that overflow lie at the midpoint below the magnitude of infinity or above. -/
theorem nearestRank_eq_infinite_iff {num den : Nat} (positive : 0 < den) :
    nearestRank num den = infiniteRank ↔ midpoint infiniteRank * den ≤ 2 * num := by
  have top : nearestRank num den = infiniteRank ↔ infiniteRank ≤ nearestRank num den :=
    ⟨fun h => Nat.le_of_eq h.symm, Nat.le_antisymm (nearestRank_le_infinite ..)⟩
  have even : infiniteRank % 2 = 0 := by decide
  rw [top, le_nearestRank_iff positive (by decide) (Nat.le_refl _), Reaches, and_iff_left even,
    Nat.le_iff_lt_or_eq]

theorem isNumber_iff {x : Binary64} : x.isNaN = false ↔ x.rank ≤ infiniteRank := by
  rw [isNaN, decide_eq_false_iff_not, Nat.not_lt]

theorem isNaN_of_isFinite {x : Binary64} (h : x.isFinite = true) : x.isNaN = false := by
  rw [isFinite, decide_eq_true_eq] at h
  exact isNumber_iff.mpr (Nat.le_of_lt h)

theorem isInfinite_of_isFinite {x : Binary64} (h : x.isFinite = true) : x.isInfinite = false := by
  simp only [isFinite, isInfinite, decide_eq_true_eq, beq_eq_false_iff_ne] at h ⊢
  omega

/-- The product of finite numbers is their rounded exact product. -/
theorem mul_of_finite {x y : Binary64} (hx : x.isFinite = true) (hy : y.isFinite = true) :
    x * y = ofUnits (x.negative != y.negative) (units x.rank * units y.rank) unitsInOne := by
  show mul x y = _
  simp [mul, isNaN_of_isFinite hx, isNaN_of_isFinite hy, isInfinite_of_isFinite hx,
    isInfinite_of_isFinite hy]

/-- The quotient of finite numbers of which the first is not zero. -/
theorem div_of_finite {x y : Binary64} (hx : x.isFinite = true) (hy : y.isFinite = true)
    (nonzero : x.isZero = false) :
    x / y = if y.isZero then infinity (x.negative != y.negative)
      else ofRatio (x.negative != y.negative) (units x.rank) (units y.rank) := by
  show div x y = _
  simp [div, isNaN_of_isFinite hx, isNaN_of_isFinite hy, isInfinite_of_isFinite hx,
    isInfinite_of_isFinite hy, nonzero]

theorem isFinite_iff_rank_ne {x : Binary64} (bound : x.rank ≤ infiniteRank) :
    x.isFinite = true ↔ x.rank ≠ infiniteRank := by
  simp only [isFinite, decide_eq_true_eq]
  omega

theorem two_pow_mul_unitsInOne (k : Nat) : 2 ^ k * unitsInOne = 2 ^ (k + unitPlaces) :=
  (Nat.pow_add ..).symm

theorem unitsInOne_pos : 0 < unitsInOne := Nat.two_pow_pos _

theorem units_binade (k : Nat) : units ((1022 + k + 1) * 2 ^ 52) = 2 ^ k * unitsInOne := by
  rw [units_power, two_pow_mul_unitsInOne]
  congr 1
  simp only [unitPlaces]
  omega

/-- A whole number between one and `2 ^ 64` is a finite double in the same bounds. -/
theorem ofNat_bounds {n : Nat} (positive : 1 ≤ n) (bound : n ≤ 2 ^ 64) :
    (ofNat n).isFinite = true ∧ unitsInOne ≤ units (ofNat n).rank ∧
      units (ofNat n).rank ≤ 2 ^ 64 * unitsInOne := by
  have least : (1022 + 0 + 1) * 2 ^ 52 ≤ (ofNat n).rank := by
    apply le_nearestRank Nat.one_pos (by decide)
    rw [units_binade 0, Nat.mul_one]
    exact Nat.mul_le_mul_right unitsInOne positive
  have most : (ofNat n).rank ≤ (1022 + 64 + 1) * 2 ^ 52 := by
    apply nearestRank_le_of_le_units Nat.one_pos (by decide)
    rw [units_binade 64, Nat.mul_one]
    exact Nat.mul_le_mul_right unitsInOne bound
  have from_one := units_le least
  rw [units_binade 0, Nat.pow_zero, Nat.one_mul] at from_one
  refine ⟨?_, from_one, units_binade 64 ▸ units_le most⟩
  rw [isFinite, decide_eq_true_eq]
  exact Nat.lt_of_le_of_lt most (by decide)

end Binary64

end TimingSweep
