import TimingSweep.Proofs.AcceptedTimes
import TimingSweep.Proofs.TextReports

/-!
# The signs of reported times

A time that is read is not below zero, so that the only minus sign in front of a printed time is
that of negative zero, and that one comes from the sign of a word. What a word spells below zero by
more than half the least double is never read as a time.

* `IsNearest.neg_halfLeast_le`: only numbers that are almost zero are rounded up to zero;
* `IsTime.hasSignOf`: the sign of a time is the sign of its word, and it is the sign of a zero;
* `printsTime_of_nonneg`: how such times are printed;
* `signs_of_times`: all that is said of times that are read and of the reports made of them.
-/

namespace TimingSweep

namespace Binary64

/-- Half of the least double above zero, which is written with the bits of one. -/
def halfLeast : ℚ := 1 / 2 ^ (unitPlaces + 1)

theorem exact_neg_least : (-ofBits 1).exact = -(2 * halfLeast) := by
  have one : units (ofBits 1).rank = 1 := by decide
  have unit : (unitsInOne : ℚ) = 2 ^ unitPlaces := Nat.cast_pow 2 unitPlaces
  rw [exact_neg, exact_of_plus rfl, one, unit, Nat.cast_one, halfLeast, pow_succ]
  field_simp

/-- What is nearest to a number far below zero lies itself below zero. -/
theorem IsNearest.neg_halfLeast_le {q : ℚ} {x : Binary64} (h : IsNearest q x)
    (nonneg : 0 ≤ x.exact) : -halfLeast ≤ q := by
  have half_pos : 0 < halfLeast := by
    unfold halfLeast
    positivity
  have nearer := h.nearest (-ofBits 1) (by decide)
  rw [abs_sub_le_abs_sub_iff, exact_neg_least] at nearer
  have apart : -(2 * halfLeast) - x.exact < 0 := by linarith
  have middle : x.exact + -(2 * halfLeast) - 2 * q ≤ 0 := by
    by_contra above
    exact absurd (mul_neg_of_neg_of_pos apart (not_le.mp above)) (not_lt.mpr nearer)
  linarith

/-- A number with a sign that is not below zero is a zero. -/
theorem eq_signedZero_of_nonneg {x : Binary64} (nonneg : 0 ≤ x.exact)
    (minus : x.negative = true) : x = signedZero true := by
  have zero : x.rank = 0 := by
    apply Nat.eq_zero_of_not_pos
    intro positive
    have magnitude : (0 : ℚ) < units x.rank := by exact_mod_cast units_pos_iff.mpr positive
    have := div_pos magnitude unitsInOne_pos_rat
    rw [exact_eq, minus, if_pos rfl] at nonneg
    linarith
  cases x
  simp_all [signedZero]

end Binary64

/-! ## How times are printed -/

/-- Digits, at least one. -/
def IsDigits (text : List Char) : Prop := text ≠ [] ∧ ∀ c ∈ text, c.isDigit = true

theorem isDigits_toDigits (n : Nat) : IsDigits (Nat.toDigits 10 n) :=
  ⟨Nat.toDigits_ne_nil, isDigit_toDigits n⟩

/-- The row of a sample: digits, a comma, a sign, digits, a point and six digits. -/
def IsRow (sign text : List Char) : Prop :=
  ∃ size whole fraction, IsDigits size ∧ IsDigits whole ∧ IsDigits fraction ∧
    fraction.length = 6 ∧ text = size ++ ',' :: (sign ++ (whole ++ '.' :: fraction)) ++ ['\n']

/-- A minus sign stands nowhere but right behind the mark of an exponent. -/
def MinusInExponent (text : List Char) : Prop :=
  '-' ∉ text ∨ ∃ before after, text = before ++ 'e' :: '-' :: after ∧ '-' ∉ before ∧ '-' ∉ after

theorem minus_not_mem {digits : List Char} (digit : ∀ c ∈ digits, c.isDigit = true) :
    '-' ∉ digits := fun member => absurd (digit '-' member) (by decide)

theorem Numeral.minusInExponent_literal (n : Numeral) : MinusInExponent n.literal := by
  have whole := minus_not_mem n.isDigit_whole
  have fraction : '-' ∉ n.pointText := by
    unfold pointText
    split
    · exact List.not_mem_nil
    · rw [List.mem_cons, not_or]
      exact ⟨by decide, minus_not_mem n.digits⟩
  have before : '-' ∉ n.whole ++ n.pointText := by
    rw [List.mem_append, not_or]
    exact ⟨whole, fraction⟩
  rw [literal, ← List.append_assoc]
  cases exponent : n.power with
  | none =>
    left
    rw [powerText, exponent, List.append_nil]
    exact before
  | some power =>
    have digits := minus_not_mem (isDigit_toDigits power.natAbs)
    by_cases negative : power < 0
    · right
      refine ⟨n.whole ++ n.pointText, Nat.toDigits 10 power.natAbs, ?_, before, digits⟩
      simp only [powerText, exponent, negative, if_true]
      rfl
    · left
      have plus : '-' ∉ n.plus := by
        rcases n.signed with bare | signed
        · rw [bare]
          exact List.not_mem_nil
        · rw [signed]
          decide
      simp only [powerText, exponent, negative, if_false, List.mem_append, List.mem_cons, not_or]
      exact ⟨not_or.mp (mt List.mem_append.mpr before), ⟨by decide, plus⟩, digits⟩

theorem Binary64.exists_fixed {x : Binary64} (finite : x.isFinite = true) {places : Nat}
    (behind : 0 < places) : ∃ whole fraction, IsDigits whole ∧ IsDigits fraction ∧
      fraction.length = places ∧ fixed places x = x.sign ++ (whole ++ '.' :: fraction) := by
  have written := fixed_of_finite finite places
  generalize scaled places x = n at written
  obtain ⟨length, digits⟩ := digits_filled n behind
  refine ⟨Nat.toDigits 10 (n / 10 ^ places), _, isDigits_toDigits _, ⟨?_, digits⟩, length, ?_⟩
  · rw [← List.length_pos_iff, length]
    exact behind
  · rw [written, List.append_assoc, List.append_assoc, List.append_assoc, List.singleton_append]

/-- The sample has no sign in front of its time, unless that is negative zero. -/
structure PrintsTime (s : Sample) : Prop where
  row : IsRow s.elapsed.sign (Report.row s).toList
  json : ∃ literal, Json.numeral s.elapsed = s.elapsed.sign ++ literal ∧ MinusInExponent literal
  sign : s.elapsed.sign = [] ∨ s.elapsed = .signedZero true

theorem printsTime_of_nonneg {s : Sample} (finite : s.elapsed.isFinite = true)
    (nonneg : 0 ≤ s.elapsed.exact) : PrintsTime s where
  row := by
    have behind : 0 < Report.timePlaces := by decide
    obtain ⟨whole, fraction, isWhole, isFraction, length, time⟩ :=
      Binary64.exists_fixed finite behind
    refine ⟨_, whole, fraction, isDigits_toDigits s.size.toNat, isWhole, isFraction, length, ?_⟩
    rw [Report.toList_row, Report.rowLine, time]
  json := by
    obtain ⟨n, written, -, -⟩ := Json.exists_numeral finite
    exact ⟨n.literal, written, n.minusInExponent_literal⟩
  sign := by
    cases minus : s.elapsed.negative with
    | false => exact Or.inl (by rw [Binary64.sign, minus, if_neg Bool.false_ne_true])
    | true => exact Or.inr (Binary64.eq_signedZero_of_nonneg nonneg minus)

/-! ## Times that are read -/

theorem Spelling.negative_iff (n : Spelling) : n.negative = true ↔ n.text.head? = some '-' := by
  rw [negative, isMinus, text, beq_iff_eq]
  rcases n.signed with bare | plus | minus
  · rw [bare, List.nil_append]
    constructor
    · intro same
      cases same
    · intro head
      rcases n.head_body '-' head with digit | point
      · exact absurd digit (by decide)
      · exact absurd point (by decide)
  · rw [plus]
    simp
  · rw [minus]
    simp

/-- The text of a numeral determines its sign and its value. -/
theorem Spelling.value_eq_of_text_eq {n m : Spelling} (same : n.text = m.text) :
    n.value = m.value := by
  have read := Decimal.read?_text n
  rw [same, Decimal.read?_text m, Option.some.injEq, Prod.mk.injEq] at read
  rw [← n.value_decimal, ← m.value_decimal, read.1, read.2]

namespace TimeLine

/-- What is known of the sign of a time and of the word that it was read from. -/
structure HasSignOf (word : List Char) (x : Binary64) : Prop where
  sign : x.negative = true ↔ word.head? = some '-'
  zero : x.negative = true → x = .signedZero true
  bound : ∀ n : Spelling, n.text = word → -Binary64.halfLeast ≤ n.value

theorem IsTime.hasSignOf {word : List Char} {x : Binary64} (time : IsTime word x) :
    HasSignOf word x := by
  obtain ⟨⟨n, rfl, nearest, sign⟩, -, nonneg⟩ := time
  refine ⟨by rw [sign, n.negative_iff], Binary64.eq_signedZero_of_nonneg nonneg, ?_⟩
  intro m same
  rw [Spelling.value_eq_of_text_eq same]
  exact nearest.neg_halfLeast_le nonneg

/-- A time comes from the first word behind the mark of the last time line. -/
theorem exists_word_of_read {output : List Char} {x : Binary64} (accepted : read output = .ok x) :
    ∃ rest word, IsLast output rest ∧ IsFirstWord rest word ∧ IsTime word x := by
  obtain ⟨⟨rest, last, -⟩, -⟩ := read_eq_ok_iff.mp accepted
  rw [read_of_last (last?_eq_some_iff.mpr last)] at accepted
  exact ⟨rest, firstWord rest, last, firstWord_eq_iff.mp rfl, time_eq_ok_iff_isTime.mp accepted⟩

/-- The times were read from outputs, or stand for none. -/
def AreRead (additions : List Addition) : Prop :=
  ∀ a ∈ additions, a.sample.elapsed = noMeasurement ∨ ∃ output, read output = .ok a.sample.elapsed

/-- A time has a sign only if it is negative zero and its word begins with a minus sign, and that is
all that is seen of signs in the reports. -/
theorem signs_of_times :
    (∀ output x, read output = .ok x → x.isFinite = true ∧ 0 ≤ x.exact ∧
      ∃ rest word, IsLast output rest ∧ IsFirstWord rest word ∧ Decimal.Spells word x ∧
        HasSignOf word x) ∧
    ∀ algorithm generatedAt additions, AreRead additions →
      ∀ entry ∈ ((Report.new algorithm generatedAt).addAll additions).series,
        ∀ s ∈ entry.2, PrintsTime s := by
  constructor
  · intro output x accepted
    obtain ⟨rest, word, last, first, time⟩ := exists_word_of_read accepted
    exact ⟨time.2.1, time.2.2, rest, word, last, first, time.1, time.hasSignOf⟩
  · intro algorithm generatedAt additions areRead entry member s held
    rcases Report.mem_addAll member held with ⟨_, old, -⟩ | ⟨a, added, rfl⟩
    · cases old
    · rcases areRead a added with stand_in | ⟨output, accepted⟩
      · apply printsTime_of_nonneg
        · rw [stand_in]
          rfl
        · rw [stand_in]
          exact (Binary64.exact_signedZero false).ge
      · obtain ⟨_, _, -, -, -, finite, nonneg⟩ := exists_word_of_read accepted
        exact printsTime_of_nonneg finite nonneg

/-- A zero with a sign, which is also what is read of numbers just below zero, and a time that is
written with an exponent below zero. -/
theorem signs_of_small_times :
    read "time: -0".toList = .ok (.signedZero true) ∧
    read "time: -1e-400".toList = .ok (.signedZero true) ∧
    read "time: -2.4e-324".toList = .ok (.signedZero true) ∧
    (read "time: -2.5e-324".toList).isOk = false ∧
    (Binary64.signedZero true).negative = true ∧
    Report.row ⟨2, .signedZero true⟩ = "2,-0.000000\n" ∧
    Json.numeral (.signedZero true) = "-0.0".toList ∧
    (read "time: 1e-7".toList).map Json.numeral = .ok "1e-7".toList := by
  decide +kernel

/-- A zero with a sign behind one without, and the stand-in. -/
def zeros : List Addition := [
  ⟨"compute", ⟨2, .zero⟩⟩,
  ⟨"compute", ⟨4, .signedZero true⟩⟩,
  ⟨"tbb", ⟨2, noMeasurement⟩⟩]

theorem signs_of_zeros :
    AreRead zeros ∧ (∀ s ∈ zeros.map (·.sample), PrintsTime s) ∧
    (.signedZero true : Binary64).isFinite = true ∧
    ∃ rest word, IsLast "time: -0 ms".toList rest ∧ IsFirstWord rest word ∧
      HasSignOf word (.signedZero true) := by
  have minus : read "time: -0 ms".toList = .ok (.signedZero true) := by decide +kernel
  have areRead : AreRead zeros := by
    intro a member
    simp only [zeros, List.mem_cons, List.not_mem_nil, or_false] at member
    rcases member with rfl | rfl | rfl
    · exact Or.inl rfl
    · exact Or.inr ⟨_, minus⟩
    · exact Or.inl rfl
  obtain ⟨times, reports⟩ := signs_of_times
  obtain ⟨finite, -, rest, word, last, first, -, sign⟩ := times _ _ minus
  have prints := reports "sort" "" zeros areRead
  refine ⟨areRead, ?_, finite, rest, word, last, first, sign⟩
  have compute := prints ("compute", [⟨2, .zero⟩, ⟨4, .signedZero true⟩]) (by decide)
  have tbb := prints ("tbb", [⟨2, noMeasurement⟩]) (by decide)
  simp only [zeros, List.map_cons, List.map_nil, List.forall_mem_cons] at compute tbb ⊢
  exact ⟨compute.1, compute.2.1, tbb⟩

end TimeLine

end TimingSweep
