import TimingSweep.Arguments

/-!
# Ascending sizes

The sizes of a command line are put in order and taken once each; the default ones are powers of two
and come in order.

* `pairwise_ascending`, `mem_ascending`: a list in ascending order has the members it had;
* `pairwise_powersOfTwo`: powers of two below `2 ^ 64` ascend;
* `pairwise_sizes`: the sizes of any arguments ascend strictly.
-/

namespace TimingSweep

namespace Sizes

theorem mem_ascending (size : UInt64) (sizes : List UInt64) :
    size ∈ ascending sizes ↔ size ∈ sizes := by
  rw [ascending, mem_dropRepeats, List.mem_mergeSort]

/-- In a list in order, equal sizes are neighbours. -/
theorem pairwise_dropRepeats {sizes : List UInt64} (sorted : sizes.Pairwise (· ≤ ·)) :
    (dropRepeats sizes).Pairwise (· < ·) := by
  fun_induction dropRepeats sizes with
  | case1 => exact .nil
  | case2 size => exact List.pairwise_singleton ..
  | case3 next rest ih => exact ih sorted.of_cons
  | case4 size next rest distinct ih =>
    refine .cons ?_ (ih sorted.of_cons)
    intro later member
    rw [mem_dropRepeats] at member
    have first : size < next :=
      UInt64.lt_of_le_of_ne (List.rel_of_pairwise_cons sorted List.mem_cons_self) distinct
    rcases List.mem_cons.mp member with rfl | member
    · exact first
    · exact UInt64.lt_of_lt_of_le first (List.rel_of_pairwise_cons sorted.of_cons member)

theorem pairwise_ascending (sizes : List UInt64) : (ascending sizes).Pairwise (· < ·) := by
  apply pairwise_dropRepeats
  refine List.Pairwise.imp of_decide_eq_true (List.pairwise_mergeSort ?_ ?_ sizes)
  · intro a b c first next
    simp only [decide_eq_true_eq] at *
    exact UInt64.le_trans first next
  · intro a b
    simpa using UInt64.le_total a b

theorem toNat_ofNat_two_pow {exponent : Nat} (small : exponent < 64) :
    (UInt64.ofNat (2 ^ exponent)).toNat = 2 ^ exponent :=
  UInt64.toNat_ofNat_of_lt' (Nat.pow_lt_pow_right (by decide) small)

theorem pairwise_powersOfTwo (least : Nat) {greatest : Nat} (small : greatest < 64) :
    (powersOfTwo least greatest).Pairwise (· < ·) := by
  have power : ∀ exponent ∈ List.range' least (greatest + 1 - least),
      (UInt64.ofNat (2 ^ exponent)).toNat = 2 ^ exponent := by
    intro exponent member
    obtain ⟨low, high⟩ := List.mem_range'_1.mp member
    exact toNat_ofNat_two_pow (by omega)
  rw [powersOfTwo, List.pairwise_map]
  refine (List.pairwise_lt_range' ..).imp_of_mem ?_
  intro a b memberA memberB less
  rw [UInt64.lt_iff_toNat_lt, power a memberA, power b memberB]
  exact Nat.pow_lt_pow_right (by decide) less

end Sizes

namespace Arguments

theorem pairwise_sizes (a : Arguments) : a.sizes.Pairwise (· < ·) := by
  unfold sizes
  split
  · exact Sizes.pairwise_powersOfTwo _ (by decide)
  · exact Sizes.pairwise_ascending _

theorem sizes_ne_nil (a : Arguments) : a.sizes ≠ [] := by
  unfold sizes
  cases given : a.rawSizes with
  | nil => decide
  | cons size rest =>
    apply List.ne_nil_of_mem (a := size)
    exact (Sizes.mem_ascending ..).mpr List.mem_cons_self

end Arguments

end TimingSweep
