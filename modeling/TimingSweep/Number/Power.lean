/-!
# Powers

Powers of whole numbers are formed by the operation that comes with them, also where other theories
of powers are in scope.

* `mul_five_pow_mul_two_pow`: a binary fraction becomes a decimal one by powers of five.
-/

attribute [instance (20000)] instPowNat

attribute [default_instance 20000] instPowNat

namespace TimingSweep

theorem mul_five_pow_mul_two_pow (m n : Nat) : m * 5 ^ n * 2 ^ n = m * 10 ^ n := by
  rw [Nat.mul_assoc, ← Nat.mul_pow]

end TimingSweep
