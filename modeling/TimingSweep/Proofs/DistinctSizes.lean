import Mathlib.Data.Finset.Card
import Mathlib.Data.List.Sort
import TimingSweep.Proofs.Ascending
import TimingSweep.Proofs.Objections

/-!
# The sizes of a sweep, each once

Only which sizes are given matters, not their order or how often each is given: there is one list in
ascending order with the same members, and this is what is swept.

* `IsOnceEach.unique`, `isOnceEach_iff`: there is one such list, and `ascending` finds it;
* `IsOnceEach.length`: it is as long as there are distinct sizes;
* `mem_powersOfTwo`, `checkSizes_powersOfTwo`: the usual sizes, none of which is refused;
* `sizes_once_each`: what is swept for any arguments.
-/

namespace TimingSweep

namespace Sizes

/-- The sizes of a list in strictly ascending order. -/
structure IsOnceEach (once sizes : List UInt64) : Prop where
  ascends : once.Pairwise (· < ·)
  mem_iff : ∀ size, size ∈ once ↔ size ∈ sizes

variable {once once' sizes sizes' : List UInt64}

theorem isOnceEach_ascending (sizes : List UInt64) : IsOnceEach (ascending sizes) sizes :=
  ⟨pairwise_ascending sizes, fun size => mem_ascending size sizes⟩

theorem IsOnceEach.unique (h : IsOnceEach once sizes) (h' : IsOnceEach once' sizes) :
    once = once' :=
  h.ascends.eq_of_mem_iff h'.ascends fun size => (h.mem_iff size).trans (h'.mem_iff size).symm

theorem isOnceEach_iff : IsOnceEach once sizes ↔ once = ascending sizes := by
  constructor
  · intro h
    exact h.unique (isOnceEach_ascending sizes)
  · rintro rfl
    exact isOnceEach_ascending sizes

theorem IsOnceEach.length (h : IsOnceEach once sizes) : once.length = sizes.toFinset.card := by
  have distinct : once.Nodup := h.ascends.imp UInt64.ne_of_lt
  have same : once.toFinset = sizes.toFinset := by
    ext size
    rw [List.mem_toFinset, List.mem_toFinset, h.mem_iff]
  rw [← List.toFinset_card_of_nodup distinct, same]

/-- Lists with the same members come to the same, and only these do. -/
theorem ascending_eq_iff :
    ascending sizes = ascending sizes' ↔ ∀ size, size ∈ sizes ↔ size ∈ sizes' := by
  constructor
  · intro same size
    rw [← mem_ascending, same, mem_ascending]
  · intro same
    exact (isOnceEach_ascending sizes).unique
      ⟨pairwise_ascending sizes', fun size => (mem_ascending ..).trans (same size).symm⟩

/-- A list that ascends is left as it is. -/
theorem ascending_of_pairwise (ascends : sizes.Pairwise (· < ·)) : ascending sizes = sizes :=
  (isOnceEach_iff.mp ⟨ascends, fun _ => Iff.rfl⟩).symm

theorem mem_powersOfTwo {least greatest : Nat} (small : greatest < 64) {size : UInt64} :
    size ∈ powersOfTwo least greatest ↔
      ∃ exponent, least ≤ exponent ∧ exponent ≤ greatest ∧ size.toNat = 2 ^ exponent := by
  have within : ∀ exponent, exponent ∈ List.range' least (greatest + 1 - least) ↔
      least ≤ exponent ∧ exponent ≤ greatest := by
    intro exponent
    rw [List.mem_range'_1]
    omega
  have power : ∀ exponent ≤ greatest,
      UInt64.ofNat (2 ^ exponent) = size ↔ size.toNat = 2 ^ exponent := by
    intro exponent high
    rw [← UInt64.toNat_inj, toNat_ofNat_two_pow (Nat.lt_of_le_of_lt high small), eq_comm]
  simp only [powersOfTwo, List.mem_map, within, and_assoc]
  constructor
  · rintro ⟨exponent, low, high, same⟩
    exact ⟨exponent, low, high, (power exponent high).mp same⟩
  · rintro ⟨exponent, low, high, same⟩
    exact ⟨exponent, low, high, (power exponent high).mpr same⟩

theorem checkSizes_powersOfTwo {least greatest : Nat} (small : greatest < 64) :
    Request.checkSizes (powersOfTwo least greatest) = .ok () := by
  rw [Request.checkSizes_eq_ok_iff, mem_powersOfTwo small]
  rintro ⟨exponent, -, -, zero⟩
  have positive := Nat.two_pow_pos exponent
  have nothing : (0 : UInt64).toNat = 0 := rfl
  omega

end Sizes

namespace Arguments

variable {a : Arguments}

theorem sizes_of_given (given : a.rawSizes ≠ []) : a.sizes = Sizes.ascending a.rawSizes := by
  simp [sizes, given]

theorem sizes_of_none (missing : a.rawSizes = []) :
    a.sizes = Sizes.powersOfTwo leastExponent greatestExponent := by
  simp [sizes, missing]

/-- The sizes that are given are swept in ascending order, each once, whatever their order and
however often each is given; without any, the powers of two are. Giving the sizes that are swept
leads to the same sweep. -/
theorem sizes_once_each (a : Arguments) :
    (a.rawSizes ≠ [] →
      Sizes.IsOnceEach a.sizes a.rawSizes ∧ a.sizes.length = a.rawSizes.toFinset.card ∧
      ∀ b : Arguments, b.rawSizes ≠ [] →
        (b.sizes = a.sizes ↔ ∀ size, size ∈ b.rawSizes ↔ size ∈ a.rawSizes)) ∧
    { a with rawSizes := a.sizes }.sizes = a.sizes ∧
    (a.rawSizes = [] →
      a.sizes.Pairwise (· < ·) ∧
      (∀ size, size ∈ a.sizes ↔
        ∃ exponent, 1 ≤ exponent ∧ exponent ≤ 25 ∧ size.toNat = 2 ^ exponent) ∧
      Request.checkSizes a.sizes = .ok ()) := by
  have small : greatestExponent < 64 := by decide
  refine ⟨fun given => ?_, ?_, fun missing => ⟨a.pairwise_sizes, ?_⟩⟩
  · have once : Sizes.IsOnceEach a.sizes a.rawSizes :=
      Sizes.isOnceEach_iff.mpr (sizes_of_given given)
    refine ⟨once, once.length, fun b given' => ?_⟩
    rw [sizes_of_given given, sizes_of_given given', Sizes.ascending_eq_iff]
  · rw [sizes_of_given a.sizes_ne_nil]
    exact Sizes.ascending_of_pairwise a.pairwise_sizes
  · rw [sizes_of_none missing]
    exact ⟨fun size => Sizes.mem_powersOfTwo small, Sizes.checkSizes_powersOfTwo small⟩

/-- The greatest size of all, given twice, once behind a smaller one; and no sizes. -/
theorem greatest_once_each :
    let most : UInt64 := 18446744073709551615
    let a : Arguments := ⟨"sort", .text, [], [most, 8, most, 2], none, none⟩
    let b : Arguments := ⟨"merge", .json, [], [2, 2, 8, most], none, none⟩
    let c : Arguments := ⟨"sort", .text, [], [], none, none⟩
    Sizes.IsOnceEach a.sizes [most, 8, most, 2] ∧ b.sizes = a.sizes ∧ a.sizes.length = 3 ∧
      Request.checkSizes c.sizes = .ok () := by
  intro most a b c
  obtain ⟨given, -, -⟩ := sizes_once_each a
  obtain ⟨once, length, others⟩ := given (by decide)
  obtain ⟨-, -, standard⟩ := sizes_once_each c
  have same : ∀ size, size ∈ b.rawSizes ↔ size ∈ a.rawSizes := by
    intro size
    simp only [a, b, List.mem_cons, List.not_mem_nil, or_false]
    tauto
  exact ⟨once, (others b (by decide)).mpr same, length, (standard rfl).2.2⟩

end Arguments

end TimingSweep
