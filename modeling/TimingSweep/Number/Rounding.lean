/-!
# Rounding quotients

`roundHalfEven num den` is the integer nearest to `num / den`; an exact half goes to the even
neighbour.

* `roundHalfEven_le` and `le_roundHalfEven`: twice the error is at most the divisor.
-/

namespace TimingSweep

/-- The integer nearest to `num / den`, a tie going to the even neighbour. -/
def roundHalfEven (num den : Nat) : Nat :=
  let quotient := num / den
  let rest := num % den
  if 2 * rest < den then quotient
  else if den < 2 * rest then quotient + 1
  else quotient + quotient % 2

theorem roundHalfEven_le (num den : Nat) :
    2 * (den * roundHalfEven num den) ≤ 2 * num + den := by
  have split := Nat.div_add_mod num den
  simp only [roundHalfEven]
  split
  · omega
  · split
    · simp only [Nat.mul_add]; omega
    · have parity := Nat.mod_lt (num / den) (show 0 < 2 by decide)
      have bound : den * (num / den % 2) ≤ den * 1 := Nat.mul_le_mul_left den (by omega)
      simp only [Nat.mul_add]; omega

theorem le_roundHalfEven (num den : Nat) (positive : 0 < den) :
    2 * num ≤ 2 * (den * roundHalfEven num den) + den := by
  have split := Nat.div_add_mod num den
  have rest := Nat.mod_lt num positive
  simp only [roundHalfEven]
  split
  · omega
  · split
    · simp only [Nat.mul_add]; omega
    · simp only [Nat.mul_add]; omega

end TimingSweep
