import TimingSweep.Json.Scanner
import TimingSweep.Number.Decimal

/-!
# Numerals

A `Numeral` is taken apart into the digits before the point, the digits behind it and the exponent.

* `Numeral.run?_literal`: a numeral is one to the scanner;
* `Numeral.read?_sign_append`: it is read as the decimal that its parts give;
* `Numeral.not_all_digits`: with a point or an exponent it is more than digits.
-/

namespace TimingSweep

/-- Digits that do not begin with a zero. -/
structure Significant (digits : List Char) : Prop where
  digit : ∀ c ∈ digits, c.isDigit = true
  leads : ∃ first rest, digits = first :: rest ∧ first ≠ '0'

theorem Significant.ne_nil {digits : List Char} (h : Significant digits) : digits ≠ [] := by
  obtain ⟨first, rest, rfl, -⟩ := h.leads
  exact List.cons_ne_nil first rest

theorem isDigit_toDigits (n : Nat) : ∀ c ∈ Nat.toDigits 10 n, c.isDigit = true := fun _ member =>
  Nat.isDigit_of_mem_toDigits (by decide) (by decide) member

theorem significant_toDigits {n : Nat} (positive : 0 < n) : Significant (Nat.toDigits 10 n) := by
  refine ⟨isDigit_toDigits n, ?_⟩
  induction n using Nat.strongRecOn with
  | ind n ih =>
    by_cases single : n < 10
    · have nonzero : ∀ d < 10, 0 < d → Nat.digitChar d ≠ '0' := by decide
      exact ⟨_, [], Nat.toDigits_of_lt_base single, nonzero n single positive⟩
    · have more : 10 ≤ n := Nat.le_of_not_lt single
      obtain ⟨first, rest, digits, nonzero⟩ := ih (n / 10) (by omega) (by omega)
      refine ⟨first, rest ++ [(n % 10).digitChar], ?_, nonzero⟩
      rw [Nat.toDigits_of_base_le (by decide) more, digits, List.cons_append]

/-- The digits of a number are a zero alone or do not begin with one. -/
theorem leads_toDigits (n : Nat) : Nat.toDigits 10 n = ['0'] ∨ Significant (Nat.toDigits 10 n) := by
  rcases Nat.eq_zero_or_pos n with rfl | positive
  · exact Or.inl rfl
  · exact Or.inr (significant_toDigits positive)

namespace Json.NumeralStage

/-- The stage after some characters, if they can follow. -/
def run? (stage : NumeralStage) (literal : List Char) : Option NumeralStage :=
  literal.foldlM next? stage

theorem run?_append (stage : NumeralStage) (first rest : List Char) :
    run? stage (first ++ rest) = (run? stage first).bind fun later => run? later rest :=
  List.foldlM_append

theorem run?_cons (stage : NumeralStage) (c : Char) (rest : List Char) :
    run? stage (c :: rest) = (stage.next? c).bind fun later => run? later rest :=
  List.foldlM_cons

/-- Digits can go on after which digits can go on. -/
theorem run?_digits {stage : NumeralStage} (stays : ∀ c, c.isDigit → stage.next? c = some stage)
    {digits : List Char} (digit : ∀ c ∈ digits, c.isDigit = true) :
    run? stage digits = some stage := by
  induction digits with
  | nil => rfl
  | cons c rest ih =>
    rw [List.forall_mem_cons] at digit
    rw [run?_cons, stays c digit.1, Option.bind_some, ih digit.2]

end Json.NumeralStage

/-- A numeral without a sign: the digits before the point, the digits behind it, and an exponent
with the sign of exponents from zero on. -/
structure Numeral where
  whole : List Char
  fraction : List Char
  plus : List Char
  power : Option Int
  leads : whole = ['0'] ∨ Significant whole
  digits : ∀ c ∈ fraction, c.isDigit = true
  signed : plus = [] ∨ plus = ['+']

namespace Numeral

open Json

/-- The point and what is behind it. -/
def pointText (n : Numeral) : List Char :=
  if n.fraction.isEmpty then [] else '.' :: n.fraction

/-- The exponent and its mark. -/
def powerText (n : Numeral) : List Char :=
  match n.power with
  | none => []
  | some power =>
    'e' :: (if power < 0 then ['-'] else n.plus) ++ Nat.toDigits 10 power.natAbs

def literal (n : Numeral) : List Char := n.whole ++ (n.pointText ++ n.powerText)

def decimal (n : Numeral) : Decimal :=
  ⟨Nat.ofDigitChars 10 (n.whole ++ n.fraction) 0, n.power.getD 0 - n.fraction.length⟩

/-- Nothing but digits before the point. -/
def IsWhole (n : Numeral) : Prop := n.fraction = [] ∧ n.power = none

variable (n : Numeral)

theorem isDigit_whole : ∀ c ∈ n.whole, c.isDigit = true := by
  rcases n.leads with zero | significant
  · rw [zero, List.forall_mem_singleton]
    rfl
  · exact significant.digit

theorem exists_whole : ∃ first rest, n.whole = first :: rest ∧ first.isDigit = true := by
  rcases n.leads with zero | significant
  · exact ⟨'0', [], zero, rfl⟩
  · obtain ⟨first, rest, same, -⟩ := significant.leads
    exact ⟨first, rest, same, significant.digit first (same ▸ List.mem_cons_self)⟩

/-- What stands behind the whole digits is not a digit. -/
theorem head_powerText : ∀ c ∈ n.powerText.head?, c.isDigit = false := by
  unfold powerText
  split
  · exact fun _ h => nomatch h
  · rintro _ ⟨⟩
    rfl

theorem head_pointText : ∀ c ∈ (n.pointText ++ n.powerText).head?, c.isDigit = false := by
  unfold pointText
  split
  · exact n.head_powerText
  · rintro _ ⟨⟩
    rfl

/-! ## The scanner -/

theorem run?_whole :
    ∃ stage, NumeralStage.run? .sign n.whole = some stage ∧ (stage = .zero ∨ stage = .whole) := by
  rcases n.leads with zero | significant
  · exact ⟨.zero, by rw [zero]; rfl, Or.inl rfl⟩
  · obtain ⟨first, rest, same, nonzero⟩ := significant.leads
    have digit := significant.digit
    rw [same, List.forall_mem_cons] at digit
    have entered : NumeralStage.next? .sign first = some .whole := by
      simp [NumeralStage.next?, nonzero, digit.1]
    refine ⟨.whole, ?_, Or.inr rfl⟩
    rw [same, NumeralStage.run?_cons, entered, Option.bind_some]
    exact NumeralStage.run?_digits (fun c h => by simp [NumeralStage.next?, h]) digit.2

theorem run?_pointText {stage : NumeralStage} (h : stage = .zero ∨ stage = .whole) :
    ∃ later, stage.run? n.pointText = some later ∧
      (later = .zero ∨ later = .whole ∨ later = .fraction) := by
  unfold pointText
  cases digits : n.fraction with
  | nil => exact ⟨stage, rfl, h.imp_right Or.inl⟩
  | cons first rest =>
    have digit := n.digits
    rw [digits, List.forall_mem_cons] at digit
    have point : stage.next? '.' = some .point := by
      rcases h with rfl | rfl <;> rfl
    have entered : NumeralStage.next? .point first = some .fraction := by
      simp [NumeralStage.next?, digit.1]
    refine ⟨.fraction, ?_, Or.inr (Or.inr rfl)⟩
    rw [List.isEmpty_cons, if_neg (by decide), NumeralStage.run?_cons, point, Option.bind_some,
      NumeralStage.run?_cons, entered, Option.bind_some]
    exact NumeralStage.run?_digits (fun c h => by simp [NumeralStage.next?, h]) digit.2

theorem run?_exponent {stage : NumeralStage}
    (enters : ∀ c, c.isDigit → stage.next? c = some .exponent) (k : Nat) :
    stage.run? (Nat.toDigits 10 k) = some .exponent := by
  have digit := isDigit_toDigits k
  cases digits : Nat.toDigits 10 k with
  | nil => exact absurd digits Nat.toDigits_ne_nil
  | cons first rest =>
    rw [digits, List.forall_mem_cons] at digit
    rw [NumeralStage.run?_cons, enters first digit.1, Option.bind_some]
    exact NumeralStage.run?_digits (fun c h => by simp [NumeralStage.next?, h]) digit.2

theorem run?_powerText {stage : NumeralStage}
    (h : stage = .zero ∨ stage = .whole ∨ stage = .fraction) :
    ∃ later, stage.run? n.powerText = some later ∧ later.isComplete = true := by
  unfold powerText
  split
  · exact ⟨stage, rfl, by rcases h with rfl | rfl | rfl <;> rfl⟩
  · rename_i power _
    have mark : stage.next? 'e' = some .mark := by
      rcases h with rfl | rfl | rfl <;> rfl
    have sign : (if power < 0 then ['-'] else n.plus) = [] ∨
        ∃ c, (if power < 0 then ['-'] else n.plus) = [c] ∧ (c = '+' ∨ c = '-') := by
      split
      · exact Or.inr ⟨'-', rfl, Or.inr rfl⟩
      · exact n.signed.imp_right fun plus => ⟨'+', plus, Or.inl rfl⟩
    refine ⟨.exponent, ?_, rfl⟩
    rw [List.cons_append, NumeralStage.run?_cons, mark, Option.bind_some]
    rcases sign with bare | ⟨c, single, which⟩
    · rw [bare, List.nil_append]
      refine run?_exponent (fun c digit => ?_) _
      have plus : c ≠ '+' := by rintro rfl; exact absurd digit (by decide)
      have minus : c ≠ '-' := by rintro rfl; exact absurd digit (by decide)
      simp [NumeralStage.next?, digit, plus, minus]
    · have signed : NumeralStage.next? .mark c = some .markSign := by
        rcases which with rfl | rfl <;> rfl
      rw [single, List.singleton_append, NumeralStage.run?_cons, signed, Option.bind_some]
      exact run?_exponent (fun c digit => by simp [NumeralStage.next?, digit]) _

/-- A numeral is read to its end and may end there. -/
theorem run?_literal :
    ∃ stage, NumeralStage.run? .sign n.literal = some stage ∧ stage.isComplete = true := by
  obtain ⟨first, whole, h⟩ := n.run?_whole
  obtain ⟨second, point, h⟩ := n.run?_pointText h
  obtain ⟨third, power, complete⟩ := n.run?_powerText h
  refine ⟨third, ?_, complete⟩
  rw [literal, NumeralStage.run?_append, whole, Option.bind_some, NumeralStage.run?_append, point,
    Option.bind_some, power]

/-! ## The reader -/

theorem takeWhile_digits {digits rest : List Char} (digit : ∀ c ∈ digits, c.isDigit = true)
    (ends : ∀ c ∈ rest.head?, c.isDigit = false) :
    (digits ++ rest).takeWhile Char.isDigit = digits ∧
      (digits ++ rest).dropWhile Char.isDigit = rest := by
  rw [List.takeWhile_append_of_pos digit, List.dropWhile_append_of_pos digit]
  cases rest with
  | nil => simp
  | cons c rest =>
    have other := ends c rfl
    rw [List.takeWhile_cons_of_neg (by simp [other]), List.dropWhile_cons_of_neg (by simp [other]),
      List.append_nil]
    exact ⟨rfl, rfl⟩

theorem readSign_of_digit {c : Char} (digit : c.isDigit = true) (rest : List Char) :
    Decimal.readSign (c :: rest) = (false, c :: rest) := by
  unfold Decimal.readSign
  split
  · rename_i same
    rw [List.cons.injEq] at same
    exact absurd (same.1 ▸ digit) (by decide)
  · rename_i same
    rw [List.cons.injEq] at same
    exact absurd (same.1 ▸ digit) (by decide)
  · rfl

theorem readExponent?_powerText : Decimal.readExponent? n.powerText = some (n.power.getD 0) := by
  unfold powerText
  cases n.power with
  | none => rfl
  | some power =>
    have digit := isDigit_toDigits power.natAbs
    have bare : Decimal.readSign (Nat.toDigits 10 power.natAbs) =
        (false, Nat.toDigits 10 power.natAbs) := by
      cases same : Nat.toDigits 10 power.natAbs with
      | nil => exact absurd same Nat.toDigits_ne_nil
      | cons first rest => exact readSign_of_digit (digit first (same ▸ List.mem_cons_self)) rest
    have sign : Decimal.readSign ((if power < 0 then ['-'] else n.plus) ++
        Nat.toDigits 10 power.natAbs) = (decide (power < 0), Nat.toDigits 10 power.natAbs) := by
      by_cases negative : power < 0
      · simp only [negative, if_true, decide_true]
        rfl
      · simp only [negative, if_false, decide_false]
        rcases n.signed with plus | plus
        · rw [plus, List.nil_append, bare]
        · rw [plus]
          rfl
    have all : (Nat.toDigits 10 power.natAbs).all Char.isDigit = true := List.all_eq_true.mpr digit
    have nonempty : (Nat.toDigits 10 power.natAbs).isEmpty = false := by simp
    have size : (if power < 0 then -(power.natAbs : Int) else power.natAbs) = power := by omega
    simp only [List.cons_append, Decimal.readExponent?, sign, all, nonempty,
      Nat.ofDigitChars_ten_toDigits, decide_eq_true_eq, size, Option.getD_some]
    rfl

theorem readFraction_pointText :
    Decimal.readFraction (n.pointText ++ n.powerText) = (n.fraction, n.powerText) := by
  unfold pointText
  cases digits : n.fraction with
  | nil =>
    rw [List.isEmpty_nil, if_pos rfl, List.nil_append]
    unfold powerText
    split <;> rfl
  | cons first rest =>
    have split := takeWhile_digits n.digits n.head_powerText
    rw [digits] at split
    rw [List.isEmpty_cons, if_neg (by decide), List.cons_append]
    show (List.takeWhile _ _, List.dropWhile _ _) = _
    rw [split.1, split.2]

/-- Behind its sign, a numeral is read as the decimal that its parts give. -/
theorem read?_sign_append (x : Binary64) :
    Decimal.read? (x.sign ++ n.literal) = some (x.negative, n.decimal) := by
  obtain ⟨first, rest, whole, digit⟩ := n.exists_whole
  have sign : Decimal.readSign (x.sign ++ n.literal) = (x.negative, n.literal) := by
    unfold Binary64.sign
    cases x.negative with
    | true => rfl
    | false =>
      rw [if_neg (by decide), List.nil_append, literal, whole]
      exact readSign_of_digit digit _
  obtain ⟨taken, dropped⟩ := takeWhile_digits n.isDigit_whole n.head_pointText
  have nonempty : n.whole.isEmpty = false := by rw [whole, List.isEmpty_cons]
  simp only [Decimal.read?, sign]
  rw [literal, taken, dropped, n.readFraction_pointText]
  simp only [nonempty, Bool.false_and, Bool.false_eq_true, if_false, n.readExponent?_powerText]
  rfl

/-- Only a whole number is written in digits alone. -/
theorem not_all_digits (other : ¬ n.IsWhole) (before : List Char) :
    (before ++ n.literal).all Char.isDigit = false := by
  have point : '.' ∈ n.literal ∨ 'e' ∈ n.literal := by
    unfold literal pointText powerText
    cases digits : n.fraction with
    | cons first rest => simp
    | nil =>
      cases power : n.power with
      | some power => simp
      | none => exact absurd ⟨digits, power⟩ other
  rw [List.all_eq_false]
  rcases point with member | member
  · exact ⟨'.', List.mem_append_right _ member, by decide⟩
  · exact ⟨'e', List.mem_append_right _ member, by decide⟩

end Numeral

end TimingSweep
