import Mathlib.Algebra.Order.Round
import Mathlib.Data.Rat.Floor
import Mathlib.Tactic.FieldSimp
import Mathlib.Tactic.Linarith
import Mathlib.Tactic.Ring
import TimingSweep.Proofs.WrittenNumbers

/-!
# Numbers with a fixed number of places

A double is written with a fixed number of places as the nearest multiple of the last place, and the
numeral is read as exactly that multiple, from the smallest doubles to the largest.

* `IsNearestMultiple.abs_sub_le`: the nearest multiple is at most half a step away;
* `isNearestMultiple_roundHalfEven`: rounding a quotient finds the nearest whole number;
* `Binary64.read?_fixed`: what is written with a fixed number of places is read as a decimal;
* `Binary64.isNearestMultiple_scaled`: that decimal is the multiple nearest to the double.
-/

namespace TimingSweep

/-! ## Nearest multiples -/

/-- The multiple of a step that is nearest to a value: any other multiple is farther away, or as far
and the odd one of the two. -/
def IsNearestMultiple (step value nearest : ℚ) : Prop :=
  ∃ n : ℤ, nearest = n * step ∧ ∀ m : ℤ, m ≠ n →
    |nearest - value| < |m * step - value| ∨ |nearest - value| = |m * step - value| ∧ Even n

namespace IsNearestMultiple

variable {step value nearest : ℚ}

theorem le_of_multiple (h : IsNearestMultiple step value nearest) (m : ℤ) :
    |nearest - value| ≤ |m * step - value| := by
  obtain ⟨n, rfl, others⟩ := h
  by_cases same : m = n
  · rw [same]
  · rcases others m same with less | ⟨equal, -⟩
    · exact less.le
    · exact equal.le

theorem abs_sub_le (h : IsNearestMultiple step value nearest) (positive : 0 < step) :
    |nearest - value| ≤ step / 2 := by
  have split : round (value / step) * step - value =
      -(value / step - round (value / step)) * step := by
    field_simp
    ring
  calc |nearest - value|
      ≤ |round (value / step) * step - value| := h.le_of_multiple _
    _ = |value / step - round (value / step)| * step := by
      rw [split, abs_mul, abs_neg, abs_of_pos positive]
    _ ≤ 1 / 2 * step := by
      exact mul_le_mul_of_nonneg_right (abs_sub_round _) positive.le
    _ = step / 2 := by ring

theorem neg (h : IsNearestMultiple step value nearest) :
    IsNearestMultiple step (-value) (-nearest) := by
  obtain ⟨n, rfl, others⟩ := h
  have turned : ∀ a : ℚ, |-a - -value| = |a - value| := fun a => by
    rw [← abs_neg, neg_sub, neg_sub_neg]
  refine ⟨-n, by push_cast; ring, fun m other => ?_⟩
  have back : (m : ℚ) * step = -((-m : ℤ) * step) := by push_cast; ring
  rw [back, turned, turned]
  rcases others (-m) (fun same => other (by omega)) with less | ⟨equal, even⟩
  · exact Or.inl less
  · exact Or.inr ⟨equal, even.neg⟩

end IsNearestMultiple

/-- A rounded quotient is at most a half away. -/
theorem abs_roundHalfEven_sub_le (num : Nat) {den : Nat} (positive : 0 < den) :
    |(roundHalfEven num den : ℚ) - num / den| ≤ 1 / 2 := by
  have den_pos : (0 : ℚ) < den := by exact_mod_cast positive
  have upper : (2 * (den * roundHalfEven num den) : ℚ) ≤ 2 * num + den := by
    exact_mod_cast roundHalfEven_le num den
  have lower : (2 * num : ℚ) ≤ 2 * (den * roundHalfEven num den) + den := by
    exact_mod_cast le_roundHalfEven num den positive
  rw [abs_le]
  constructor
  · rw [neg_le_sub_iff_le_add, div_le_iff₀ den_pos]
    linarith
  · rw [sub_le_iff_le_add, ← sub_le_iff_le_add', le_div_iff₀ den_pos]
    linarith

theorem even_roundHalfEven_of_half (num : Nat) {den : Nat} (positive : 0 < den)
    (half : |(roundHalfEven num den : ℚ) - num / den| = 1 / 2) :
    Even (roundHalfEven num den : ℤ) := by
  have den_pos : (0 : ℚ) < den := by exact_mod_cast positive
  have tie : 2 * (den * roundHalfEven num den) = 2 * num + den ∨
      2 * num = 2 * (den * roundHalfEven num den) + den := by
    rcases abs_eq (by norm_num) |>.mp half with above | below
    · left
      field_simp at above
      have : (2 * (den * roundHalfEven num den) : ℚ) = 2 * num + den := by linarith
      exact_mod_cast this
    · right
      field_simp at below
      have : (2 * num : ℚ) = 2 * (den * roundHalfEven num den) + den := by linarith
      exact_mod_cast this
  have even := roundHalfEven_even positive tie
  rw [Int.even_coe_nat, Nat.even_iff]
  exact even

/-- Rounding a quotient gives the whole number nearest to it, the even one of two. -/
theorem isNearestMultiple_roundHalfEven (num : Nat) {den : Nat} (positive : 0 < den) :
    IsNearestMultiple 1 (num / den) (roundHalfEven num den) := by
  have near := abs_roundHalfEven_sub_le num positive
  refine ⟨roundHalfEven num den, by simp, fun m other => ?_⟩
  -- Two whole numbers lie at least one apart, so the other one is at least a half away.
  have apart : (1 : ℚ) ≤ |(roundHalfEven num den : ℚ) - m| := by
    have distinct : (roundHalfEven num den : ℤ) - m ≠ 0 := by omega
    exact_mod_cast Int.one_le_abs distinct
  have sides : |(roundHalfEven num den : ℚ) - m| ≤
      |(roundHalfEven num den : ℚ) - num / den| + |(m : ℚ) - num / den| := by
    rw [abs_sub_comm (m : ℚ)]
    exact abs_sub_le _ _ _
  rw [mul_one]
  rcases lt_or_eq_of_le near with less | half
  · left
    linarith
  · by_cases equal : |(m : ℚ) - num / den| = 1 / 2
    · right
      exact ⟨by rw [half, equal], even_roundHalfEven_of_half num positive half⟩
    · left
      have : 1 / 2 < |(m : ℚ) - num / den| := lt_of_le_of_ne (by linarith) (Ne.symm equal)
      linarith

theorem IsNearestMultiple.scale {step value nearest factor : ℚ} (positive : 0 < factor)
    (h : IsNearestMultiple step value nearest) :
    IsNearestMultiple (step * factor) (value * factor) (nearest * factor) := by
  obtain ⟨n, rfl, others⟩ := h
  have scaled : ∀ a : ℚ, |a * factor - value * factor| = |a - value| * factor := fun a => by
    rw [← sub_mul, abs_mul, abs_of_pos positive]
  refine ⟨n, by ring, fun m other => ?_⟩
  rw [← mul_assoc, scaled, scaled, mul_lt_mul_iff_left₀ positive,
    mul_left_inj' positive.ne']
  exact others m other

/-- Rounding a quotient to some places: it is scaled up, rounded, and scaled down. -/
theorem isNearestMultiple_places (num : Nat) {den : Nat} (positive : 0 < den) (places : Nat) :
    IsNearestMultiple (1 / 10 ^ places) (num / den)
      (roundHalfEven (num * 10 ^ places) den / 10 ^ places) := by
  have whole := isNearestMultiple_roundHalfEven (num * 10 ^ places) positive
  have step := whole.scale (show (0 : ℚ) < 1 / 10 ^ places by positivity)
  have value : ((num * 10 ^ places : Nat) : ℚ) / den * (1 / 10 ^ places) = num / den := by
    push_cast
    field_simp
  rw [one_mul, value, mul_one_div] at step
  exact step

/-! ## Written numbers -/

/-- The number that a decimal and its sign denote. -/
def Decimal.value (negative : Bool) (d : Decimal) : ℚ :=
  let magnitude : ℚ := d.significand * 10 ^ d.exponent
  if negative then -magnitude else magnitude

theorem Decimal.value_places (negative : Bool) (n places : Nat) :
    Decimal.value negative ⟨n, -places⟩ =
      if negative then -(n / 10 ^ places : ℚ) else n / 10 ^ places := by
  have magnitude : (n : ℚ) * 10 ^ (-places : ℤ) = n / 10 ^ places := by
    rw [zpow_neg, zpow_natCast, div_eq_mul_inv]
  simp only [Decimal.value, magnitude]

/-- The last digits of a number, filled up with zeros to the number of places. -/
theorem digits_filled (n : Nat) {places : Nat} (behind : 0 < places) :
    let rest := Nat.toDigits 10 (n % 10 ^ places)
    let fraction := List.replicate (places - rest.length) '0' ++ rest
    fraction.length = places ∧ ∀ c ∈ fraction, c.isDigit = true := by
  intro rest fraction
  have fits : rest.length ≤ places :=
    (Nat.length_toDigits_le_iff (by decide) behind).mpr (Nat.mod_lt _ (Nat.pow_pos (by decide)))
  constructor
  · rw [List.length_append, List.length_replicate, Nat.sub_add_cancel fits]
  · intro c member
    rcases List.mem_append.mp member with zero | digit
    · exact (List.mem_replicate.mp zero).2 ▸ rfl
    · exact isDigit_toDigits _ c digit

/-- The digits of a number with a point before the last of them, filled up with zeros. -/
theorem exists_numeral_places (n : Nat) {places : Nat} (behind : 0 < places) : ∃ m : Numeral,
    m.literal = Nat.toDigits 10 (n / 10 ^ places) ++ ['.'] ++
      List.replicate (places - (Nat.toDigits 10 (n % 10 ^ places)).length) '0' ++
        Nat.toDigits 10 (n % 10 ^ places) ∧
    m.decimal = ⟨n, -places⟩ := by
  let rest := Nat.toDigits 10 (n % 10 ^ places)
  let fraction := List.replicate (places - rest.length) '0' ++ rest
  obtain ⟨length, digits⟩ : fraction.length = places ∧ ∀ c ∈ fraction, c.isDigit = true :=
    digits_filled n behind
  refine ⟨⟨Nat.toDigits 10 (n / 10 ^ places), fraction, [], none, leads_toDigits _, digits,
    Or.inl rfl⟩, ?_, ?_⟩
  · have nonempty : fraction.isEmpty = false := by
      rw [List.isEmpty_eq_false_iff, ← List.length_pos_iff, length]
      exact behind
    simp only [Numeral.literal, Numeral.pointText, Numeral.powerText, nonempty,
      Bool.false_eq_true, if_false, List.append_nil, List.append_assoc, List.cons_append,
      List.nil_append, fraction, rest]
  · have value : Nat.ofDigitChars 10 fraction 0 = n % 10 ^ places := by
      rw [Decimal.ofDigitChars_zeros_append, Nat.ofDigitChars_ten_toDigits]
    simp only [Numeral.decimal, length, Nat.ofDigitChars_append, Nat.ofDigitChars_ten_toDigits,
      Option.getD_none, Int.zero_sub]
    rw [Nat.ofDigitChars_eq_ofDigitChars_zero, length, value, Nat.div_add_mod]

namespace Binary64

/-- The number that a finite double denotes. -/
def exact (x : Binary64) : ℚ := x.signedUnits / unitsInOne

/-- The magnitude of a double in units of the last of some places, rounded. -/
def scaled (places : Nat) (x : Binary64) : Nat :=
  roundHalfEven (units x.rank * 10 ^ places) unitsInOne

theorem exact_eq (x : Binary64) :
    x.exact =
      if x.negative then -(units x.rank / unitsInOne : ℚ) else units x.rank / unitsInOne := by
  unfold exact signedUnits
  split
  · rw [Int.cast_neg, Int.cast_natCast, neg_div]
  · rw [Int.cast_natCast]

/-- The scaled magnitude behind its sign is the nearest multiple of the last place. -/
theorem isNearestMultiple_scaled (places : Nat) (x : Binary64) :
    IsNearestMultiple (1 / 10 ^ places) x.exact
      (Decimal.value x.negative ⟨scaled places x, -places⟩) := by
  have magnitude := isNearestMultiple_places (units x.rank) unitsInOne_pos places
  rw [exact_eq, Decimal.value_places]
  split
  · exact magnitude.neg
  · exact magnitude

variable {x : Binary64} (finite : x.isFinite = true) {places : Nat}
include finite

theorem fixed_of_finite (places : Nat) : fixed places x =
    x.sign ++ Nat.toDigits 10 (scaled places x / 10 ^ places) ++ ['.'] ++
      List.replicate (places - (Nat.toDigits 10 (scaled places x % 10 ^ places)).length) '0' ++
        Nat.toDigits 10 (scaled places x % 10 ^ places) := by
  simp only [fixed, isNaN_of_isFinite finite, isInfinite_of_isFinite finite, Bool.false_eq_true,
    if_false, scaled]

/-- A sign, digits and a point are all that is written. -/
theorem mem_fixed {c : Char} (member : c ∈ fixed places x) :
    c.isDigit = true ∨ c = '-' ∨ c = '.' := by
  rw [fixed_of_finite finite] at member
  simp only [List.mem_append, List.mem_singleton, List.mem_replicate] at member
  rcases member with (((signed | whole) | point) | ⟨-, zero⟩) | fraction
  · unfold sign at signed
    split at signed
    · exact Or.inr (Or.inl (List.mem_singleton.mp signed))
    · cases signed
  · exact Or.inl (isDigit_toDigits _ c whole)
  · exact Or.inr (Or.inr point)
  · exact Or.inl (zero ▸ rfl)
  · exact Or.inl (isDigit_toDigits _ c fraction)

theorem read?_fixed (behind : 0 < places) :
    Decimal.read? (fixed places x) = some (x.negative, ⟨scaled places x, -places⟩) := by
  obtain ⟨n, written, decimal⟩ := exists_numeral_places (scaled places x) behind
  rw [fixed_of_finite finite, ← decimal, ← n.read?_sign_append, written]
  simp only [List.append_assoc]

end Binary64

end TimingSweep
