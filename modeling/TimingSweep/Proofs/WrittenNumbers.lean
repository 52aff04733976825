import TimingSweep.Json.Value
import TimingSweep.Proofs.Decimals
import TimingSweep.Proofs.Numerals

/-!
# Numbers as numerals

Whole numbers and finite doubles are written as numerals. Dropping the zeros at the end of the
digits and placing the point keeps the value, so that a numeral is read as the double it was
written for.

* `exists_numeral_toDigits`: a whole number is written in digits alone;
* `Decimal.exists_numeral_write`: either notation of a decimal keeps its value;
* `Json.exists_numeral`: a finite double is read back from its numeral, the zeros with their signs.
-/

namespace TimingSweep

/-- The digits without the zeros at their end. -/
def withoutZeros (digits : List Char) : List Char :=
  (digits.reverse.dropWhile (· == '0')).reverse

theorem exists_zeros (digits : List Char) :
    ∃ zeros, digits = withoutZeros digits ++ List.replicate zeros '0' := by
  refine ⟨(digits.reverse.takeWhile (· == '0')).length, ?_⟩
  have same : digits.reverse.takeWhile (· == '0') =
      List.replicate (digits.reverse.takeWhile (· == '0')).length '0' := by
    apply List.eq_replicate_iff.mpr ⟨rfl, fun c member => ?_⟩
    have kept := List.all_eq_true.mp List.all_takeWhile c member
    exact eq_of_beq kept
  have whole : digits.reverse.takeWhile (· == '0') ++ digits.reverse.dropWhile (· == '0') =
      digits.reverse := List.takeWhile_append_dropWhile
  rw [same] at whole
  have turned := congrArg List.reverse whole
  rw [List.reverse_append, List.reverse_replicate, List.reverse_reverse] at turned
  exact turned.symm

theorem Significant.withoutZeros {digits : List Char} (h : Significant digits) :
    Significant (withoutZeros digits) := by
  obtain ⟨zeros, split⟩ := exists_zeros digits
  refine ⟨fun c member => ?_, ?_⟩
  · apply h.digit
    rw [split]
    exact List.mem_append_left _ member
  · obtain ⟨first, rest, same, nonzero⟩ := h.leads
    cases kept : TimingSweep.withoutZeros digits with
    | nil =>
      rw [kept, List.nil_append, same] at split
      have member : first ∈ List.replicate zeros '0' := split ▸ List.mem_cons_self
      exact absurd (List.eq_of_mem_replicate member) nonzero
    | cons other more =>
      rw [kept, same, List.cons_append, List.cons.injEq] at split
      exact ⟨other, more, rfl, split.1 ▸ nonzero⟩

theorem Significant.take {digits : List Char} (h : Significant digits) {k : Nat} (least : 0 < k) :
    Significant (digits.take k) := by
  refine ⟨fun c member => h.digit c (List.mem_of_mem_take member), ?_⟩
  obtain ⟨first, rest, rfl, nonzero⟩ := h.leads
  obtain ⟨k, rfl⟩ : ∃ j, k = j + 1 := ⟨k - 1, by omega⟩
  exact ⟨first, rest.take k, List.take_succ_cons, nonzero⟩

theorem Significant.append_zeros {digits : List Char} (h : Significant digits) (zeros : Nat) :
    Significant (digits ++ List.replicate zeros '0') := by
  refine ⟨fun c member => ?_, ?_⟩
  · rcases List.mem_append.mp member with given | zero
    · exact h.digit c given
    · rw [List.eq_of_mem_replicate zero]
      rfl
  · obtain ⟨first, rest, rfl, nonzero⟩ := h.leads
    exact ⟨first, rest ++ List.replicate zeros '0', rfl, nonzero⟩

theorem exists_numeral_toDigits (k : Nat) :
    ∃ n : Numeral, n.literal = Nat.toDigits 10 k ∧ n.IsWhole :=
  ⟨⟨Nat.toDigits 10 k, [], [], none, leads_toDigits k, by simp, Or.inl rfl⟩, List.append_nil _,
    rfl, rfl⟩

namespace Decimal

open Nat (ofDigitChars)

theorem ofDigitChars_append_zeros (digits : List Char) (zeros : Nat) :
    ofDigitChars 10 (digits ++ List.replicate zeros '0') 0 =
      ofDigitChars 10 digits 0 * 10 ^ zeros := by
  rw [Nat.ofDigitChars_append, Nat.ofDigitChars_replicate_zero, Nat.mul_comm]

theorem ofDigitChars_zeros_append (zeros : Nat) (digits : List Char) :
    ofDigitChars 10 (List.replicate zeros '0' ++ digits) 0 = ofDigitChars 10 digits 0 := by
  rw [Nat.ofDigitChars_append, Nat.ofDigitChars_replicate_zero, Nat.mul_zero]

variable {digits : List Char} (significant : Significant digits) (order : Int)
include significant

/-- A number below one is written with zeros before its digits. -/
theorem exists_numeral_below_one (below : order < 0) : ∃ n : Numeral,
    n.literal = positional digits order ∧ ¬ n.IsWhole ∧
      n.decimal = ⟨ofDigitChars 10 digits 0, order + 1 - digits.length⟩ := by
  have digit : ∀ c ∈ List.replicate (-order - 1).toNat '0' ++ digits, c.isDigit = true := by
    intro c member
    rcases List.mem_append.mp member with zero | other
    · rw [List.eq_of_mem_replicate zero]
      rfl
    · exact significant.digit c other
  have nonempty : List.replicate (-order - 1).toNat '0' ++ digits ≠ [] := fun empty =>
    significant.ne_nil (List.append_eq_nil_iff.mp empty).2
  refine ⟨⟨['0'], List.replicate (-order - 1).toNat '0' ++ digits, [], none, Or.inl rfl, digit,
    Or.inl rfl⟩, ?_, fun whole => nonempty whole.1, ?_⟩
  · simp only [Numeral.literal, Numeral.pointText, Numeral.powerText, positional, below, if_true,
      List.isEmpty_eq_false_iff.mpr nonempty, Bool.false_eq_true, if_false, List.append_nil]
    simp
  · simp only [Numeral.decimal, Option.getD_none]
    have value : ofDigitChars 10 (['0'] ++ (List.replicate (-order - 1).toNat '0' ++ digits)) 0 =
        ofDigitChars 10 digits 0 := ofDigitChars_zeros_append (_ + 1) digits
    rw [value, List.length_append, List.length_replicate]
    congr 1
    omega

/-- A number with digits on both sides of the point. -/
theorem exists_numeral_with_point (start : 0 ≤ order) (beyond : order + 1 < digits.length) :
    ∃ n : Numeral, n.literal = positional digits order ∧ ¬ n.IsWhole ∧
      n.decimal = ⟨ofDigitChars 10 digits 0, order + 1 - digits.length⟩ := by
  have fewer : order.toNat + 1 - digits.length = 0 := by omega
  have more : ¬ digits.length ≤ order.toNat + 1 := by omega
  have nonempty : digits.drop (order.toNat + 1) ≠ [] := by
    rw [ne_eq, List.drop_eq_nil_iff]
    exact more
  refine ⟨⟨digits.take (order.toNat + 1), digits.drop (order.toNat + 1), [], none,
    Or.inr (significant.take (Nat.succ_pos _)),
    fun c member => significant.digit c (List.mem_of_mem_drop member), Or.inl rfl⟩, ?_,
    fun whole => nonempty whole.1, ?_⟩
  · simp only [Numeral.literal, Numeral.pointText, Numeral.powerText, positional,
      Int.not_lt.mpr start, more, fewer, List.isEmpty_eq_false_iff.mpr nonempty,
      Bool.false_eq_true, if_false, List.append_nil, List.replicate_zero]
    rw [List.append_assoc, List.singleton_append]
  · simp only [Numeral.decimal, Option.getD_none, List.take_append_drop, List.length_drop]
    congr 1
    omega

/-- A whole number is written with a zero behind the point. -/
theorem exists_numeral_without_fraction (start : 0 ≤ order) (within : digits.length ≤ order + 1) :
    ∃ n : Numeral, n.literal = positional digits order ∧ ¬ n.IsWhole ∧
      n.decimal = ⟨ofDigitChars 10 digits 0 * 10 ^ (order + 2 - digits.length).toNat, -1⟩ := by
  have all : digits.length ≤ order.toNat + 1 := by omega
  have zeros : (order + 2 - digits.length).toNat = order.toNat + 1 - digits.length + 1 := by omega
  refine ⟨⟨digits ++ List.replicate (order.toNat + 1 - digits.length) '0', ['0'], [], none,
    Or.inr (significant.append_zeros _), isDigit_toDigits 0, Or.inl rfl⟩, ?_,
    fun whole => List.cons_ne_nil _ _ whole.1, ?_⟩
  · simp only [Numeral.literal, Numeral.pointText, Numeral.powerText, positional,
      Int.not_lt.mpr start, all, if_true, if_false, List.take_of_length_le all]
    simp
  · have written : digits ++ List.replicate (order.toNat + 1 - digits.length) '0' ++ ['0'] =
        digits ++ List.replicate (order.toNat + 1 - digits.length + 1) '0' := by
      rw [List.append_assoc, List.replicate_succ']
    simp only [Numeral.decimal, Option.getD_none, written, ofDigitChars_append_zeros, zeros]
    rfl

/-- In either form a number keeps its value. -/
theorem exists_numeral_positional : ∃ n : Numeral,
    n.literal = positional digits order ∧ ¬ n.IsWhole ∧ ∀ negative,
      n.decimal.toBinary64 negative =
        toBinary64 negative ⟨ofDigitChars 10 digits 0, order + 1 - digits.length⟩ := by
  rcases Int.lt_or_le order 0 with below | start
  · obtain ⟨n, literal, notWhole, decimal⟩ := exists_numeral_below_one significant order below
    exact ⟨n, literal, notWhole, fun negative => congrArg (toBinary64 negative) decimal⟩
  rcases Int.lt_or_le (order + 1) digits.length with beyond | within
  · obtain ⟨n, literal, notWhole, decimal⟩ :=
      exists_numeral_with_point significant order start beyond
    exact ⟨n, literal, notWhole, fun negative => congrArg (toBinary64 negative) decimal⟩
  · obtain ⟨n, literal, notWhole, decimal⟩ :=
      exists_numeral_without_fraction significant order start within
    refine ⟨n, literal, notWhole, fun negative => ?_⟩
    rw [decimal, toBinary64_shift]
    congr 2
    omega

theorem exists_numeral_scientific {plus : List Char} (signed : plus = [] ∨ plus = ['+']) :
    ∃ n : Numeral, n.literal = scientific plus digits order ∧ ¬ n.IsWhole ∧
      n.decimal = ⟨ofDigitChars 10 digits 0, order + 1 - digits.length⟩ := by
  have positive := List.length_pos_iff.mpr significant.ne_nil
  refine ⟨⟨digits.take 1, digits.drop 1, plus, order, Or.inr (significant.take Nat.one_pos),
    fun c member => significant.digit c (List.mem_of_mem_drop member), signed⟩, ?_,
    fun whole => Option.some_ne_none _ whole.2, ?_⟩
  · have alone : (digits.drop 1).isEmpty = decide (digits.length ≤ 1) := by
      rw [Bool.eq_iff_iff, List.isEmpty_iff, decide_eq_true_iff]
      exact List.drop_eq_nil_iff
    simp only [Numeral.literal, Numeral.pointText, Numeral.powerText, scientific, alone,
      decide_eq_true_eq, List.append_assoc, List.cons_append]
  · simp only [Numeral.decimal, Option.getD_some, List.take_append_drop, List.length_drop]
    congr 1
    omega

omit significant in
/-- A positive decimal is written as a numeral of the same value that is not just digits. -/
theorem exists_numeral_write {layout : Layout} (signed : layout.plus = [] ∨ layout.plus = ['+'])
    {d : Decimal} (positive : 0 < d.significand) : ∃ n : Numeral,
      n.literal = d.write layout ∧ ¬ n.IsWhole ∧
        ∀ negative, n.decimal.toBinary64 negative = d.toBinary64 negative := by
  have significant := significant_toDigits positive
  obtain ⟨zeros, split⟩ := exists_zeros (Nat.toDigits 10 d.significand)
  generalize kept : withoutZeros (Nat.toDigits 10 d.significand) = digits at split
  have digits_significant : Significant digits := kept ▸ significant.withoutZeros
  generalize order_eq : d.exponent + (Nat.toDigits 10 d.significand).length - 1 = order
  have value : ∀ negative, toBinary64 negative
      ⟨ofDigitChars 10 digits 0, order + 1 - digits.length⟩ = d.toBinary64 negative := by
    intro negative
    have exponent : order + 1 - digits.length = d.exponent + zeros := by
      have length := congrArg List.length split
      rw [List.length_append, List.length_replicate] at length
      omega
    rw [exponent, ← toBinary64_shift, ← ofDigitChars_append_zeros, ← split,
      Nat.ofDigitChars_ten_toDigits]
  have written : d.write layout =
      if layout.lowest ≤ order && order ≤ layout.highest then positional digits order
      else scientific layout.plus digits order := by
    rw [← kept, ← order_eq]
    rfl
  rw [written]
  split
  · obtain ⟨n, literal, notWhole, same⟩ := exists_numeral_positional digits_significant order
    exact ⟨n, literal, notWhole, fun negative => (same negative).trans (value negative)⟩
  · obtain ⟨n, literal, notWhole, decimal⟩ :=
      exists_numeral_scientific digits_significant order signed
    exact ⟨n, literal, notWhole, fun negative => decimal ▸ value negative⟩

end Decimal

/-- A finite double is written as its sign and a numeral that is read as that double. -/
theorem Json.exists_numeral {x : Binary64} (finite : x.isFinite = true) : ∃ n : Numeral,
    numeral x = x.sign ++ n.literal ∧ ¬ n.IsWhole ∧ n.decimal.toBinary64 x.negative = x := by
  have bound : x.rank < Binary64.infiniteRank := of_decide_eq_true finite
  unfold numeral
  rw [finite, if_neg (by decide)]
  by_cases zero : x.isZero = true
  · rw [if_pos zero]
    refine ⟨⟨['0'], ['0'], [], none, Or.inl rfl, isDigit_toDigits 0, Or.inl rfl⟩, rfl,
      fun whole => List.cons_ne_nil _ _ whole.1, ?_⟩
    exact Decimal.toBinary64_of_rank (eq_of_beq zero).symm
  · have positive : 0 < x.rank := Nat.pos_of_ne_zero fun rankless => zero (beq_iff_eq.mpr rankless)
    have signed : numeralLayout.plus = [] ∨ numeralLayout.plus = ['+'] := Or.inr rfl
    obtain ⟨n, literal, notWhole, same⟩ :=
      Decimal.exists_numeral_write signed (Binary64.shortest_pos positive (Nat.le_of_lt bound))
    rw [if_neg zero]
    refine ⟨n, by rw [literal], notWhole, ?_⟩
    rw [same]
    exact Decimal.toBinary64_of_rank (Binary64.shortest_reads_back (Nat.le_of_lt bound))

end TimingSweep
