/-!
# Unsigned numerals

Whole numbers below a bound, written in decimal digits behind an optional plus.

* `readUnsigned_lt`: what is read is below the bound;
* `readUnsigned_toDigits`: the digits of a number below the bound are read as that number.
-/

namespace TimingSweep

/-- Reads the digits of a number below `bound`, with an optional plus before them. -/
def readUnsigned? (bound : Nat) (text : List Char) : Option Nat :=
  let digits := if text.head? = some '+' then text.tail else text
  let n := Nat.ofDigitChars 10 digits 0
  if !digits.isEmpty && digits.all Char.isDigit && n < bound then some n else none

theorem readUnsigned_lt {bound n : Nat} {text : List Char} (h : readUnsigned? bound text = some n) :
    n < bound := by
  simp only [readUnsigned?, Option.ite_none_right_eq_some, Bool.and_eq_true,
    decide_eq_true_eq, Option.some.injEq] at h
  exact h.2 ▸ h.1.2

theorem readUnsigned_toDigits {bound n : Nat} (h : n < bound) :
    readUnsigned? bound (Nat.toDigits 10 n) = some n := by
  have digits : ∀ c ∈ Nat.toDigits 10 n, c.isDigit = true := fun c hc =>
    Nat.isDigit_of_mem_toDigits (by decide) (by decide) hc
  have bare : (Nat.toDigits 10 n).head? ≠ some '+' := by
    intro plus
    exact absurd (digits '+' (List.mem_of_mem_head? plus)) (by decide)
  have nonempty : (Nat.toDigits 10 n).isEmpty = false := by simp
  simp only [readUnsigned?, bare, if_false, nonempty, Nat.ofDigitChars_ten_toDigits]
  simp [h, List.all_eq_true.mpr digits]

end TimingSweep
