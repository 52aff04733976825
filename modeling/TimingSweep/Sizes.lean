import TimingSweep.Number.Power

/-!
# Input sizes

A sweep runs over a list of sizes. `powersOfTwo` is the usual one and `ascending` puts a list in
order and drops repetitions.

* `mem_dropRepeats`: dropping repetitions loses no size.
-/

namespace TimingSweep.Sizes

/-- The powers of two with exponents from `least` to `greatest`. -/
def powersOfTwo (least greatest : Nat) : List UInt64 :=
  (List.range' least (greatest + 1 - least)).map fun exponent => .ofNat (2 ^ exponent)

/-- Drops each size that equals the one before it. -/
def dropRepeats : List UInt64 → List UInt64
  | [] => []
  | [size] => [size]
  | size :: next :: rest =>
    if size = next then dropRepeats (next :: rest) else size :: dropRepeats (next :: rest)

theorem mem_dropRepeats (size : UInt64) (sizes : List UInt64) :
    size ∈ dropRepeats sizes ↔ size ∈ sizes := by
  fun_induction dropRepeats sizes <;> simp_all

/-- The sizes of a list in ascending order, each once. -/
def ascending (sizes : List UInt64) : List UInt64 :=
  dropRepeats (sizes.mergeSort fun a b => decide (a ≤ b))

end TimingSweep.Sizes
