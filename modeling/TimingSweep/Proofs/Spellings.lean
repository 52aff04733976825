import TimingSweep.Proofs.NearestDoubles

/-!
# How numerals are spelled

A `Spelling` is a numeral as it may stand in an output: an optional sign, digits with at most one
point among them and at least one digit, and an optional exponent. Its value is a rational number,
whatever the lengths of its parts are.

* `read?_eq_some_iff`: what the reader accepts is a spelling, and every spelling is accepted;
* `Spelling.value_decimal`: the decimal that is read denotes the value of the spelling.
-/

namespace TimingSweep

/-- A sign that may be left out. -/
def IsSign (sign : List Char) : Prop := sign = [] ∨ sign = ['+'] ∨ sign = ['-']

/-- The sign of numbers below zero. -/
def isMinus (sign : List Char) : Bool := sign == ['-']

/-- An exponent: its mark, its sign and its digits. -/
structure Spelling.Power where
  mark : Char
  sign : List Char
  digits : List Char
  marked : mark = 'e' ∨ mark = 'E'
  signed : IsSign sign
  isDigit : ∀ c ∈ digits, c.isDigit = true
  ne_nil : digits ≠ []

/-- A numeral by its parts. The point may be first or last, but not alone. -/
structure Spelling where
  sign : List Char
  whole : List Char
  fraction : Option (List Char)
  power : Option Spelling.Power
  signed : IsSign sign
  isDigit_whole : ∀ c ∈ whole, c.isDigit = true
  isDigit_fraction : ∀ c ∈ fraction.getD [], c.isDigit = true
  ne_nil : whole ≠ [] ∨ fraction.getD [] ≠ []

namespace Spelling

def Power.text (p : Power) : List Char := p.mark :: (p.sign ++ p.digits)

def Power.exponent (p : Power) : Int :=
  if isMinus p.sign then -Nat.ofDigitChars 10 p.digits 0 else Nat.ofDigitChars 10 p.digits 0

/-- The point and the digits behind it. -/
def pointText (fraction : Option (List Char)) : List Char :=
  match fraction with
  | none => []
  | some digits => '.' :: digits

def powerText (power : Option Power) : List Char := (power.map Power.text).getD []

def powerValue (power : Option Power) : Int := (power.map Power.exponent).getD 0

variable (n : Spelling)

/-- What stands behind the sign. -/
def body : List Char := n.whole ++ (pointText n.fraction ++ powerText n.power)

def text : List Char := n.sign ++ n.body

def negative : Bool := isMinus n.sign

/-- The number that is spelled. -/
def value : ℚ :=
  let behind := n.fraction.getD []
  let digits : ℚ :=
    Nat.ofDigitChars 10 n.whole 0 + Nat.ofDigitChars 10 behind 0 / 10 ^ behind.length
  let magnitude := digits * 10 ^ powerValue n.power
  if n.negative then -magnitude else magnitude

def decimal : Decimal :=
  ⟨Nat.ofDigitChars 10 (n.whole ++ n.fraction.getD []) 0,
    powerValue n.power - (n.fraction.getD []).length⟩

theorem value_decimal : n.decimal.value n.negative = n.value := by
  let behind := n.fraction.getD []
  have digits : (n.decimal.significand : ℚ) =
      Nat.ofDigitChars 10 n.whole 0 * 10 ^ behind.length + Nat.ofDigitChars 10 behind 0 := by
    show ((Nat.ofDigitChars 10 (n.whole ++ behind) 0 : Nat) : ℚ) = _
    rw [Nat.ofDigitChars_append, Nat.ofDigitChars_eq_ofDigitChars_zero]
    push_cast
    ring
  have power : (10 : ℚ) ^ n.decimal.exponent = 10 ^ powerValue n.power / 10 ^ behind.length := by
    show (10 : ℚ) ^ (powerValue n.power - (behind.length : Int)) = _
    rw [zpow_sub₀ (by norm_num), zpow_natCast]
  have magnitude : (n.decimal.significand * 10 ^ n.decimal.exponent : ℚ) =
      (Nat.ofDigitChars 10 n.whole 0 + Nat.ofDigitChars 10 behind 0 / 10 ^ behind.length) *
        10 ^ powerValue n.power := by
    rw [digits, power]
    field_simp
  simp only [Decimal.value, magnitude]
  rfl

/-! ## Where a part ends -/

theorem head_powerText (power : Option Power) :
    ∀ c ∈ (powerText power).head?, c.isDigit = false ∧ c ≠ '.' := by
  intro c head
  cases power with
  | none => cases head
  | some p =>
    obtain rfl : p.mark = c := by simpa [powerText, Power.text] using head
    rcases p.marked with mark | mark <;> rw [mark] <;> decide

theorem head_pointText :
    ∀ c ∈ (pointText n.fraction ++ powerText n.power).head?, c.isDigit = false := by
  cases n.fraction with
  | none => exact fun c head => (head_powerText n.power c head).1
  | some digits =>
    rintro c ⟨⟩
    rfl

theorem head_body : ∀ c ∈ n.body.head?, c.isDigit = true ∨ c = '.' := by
  intro c head
  unfold body at head
  cases whole : n.whole with
  | cons first rest =>
    rw [whole] at head
    obtain rfl : first = c := by simpa using head
    exact Or.inl (n.isDigit_whole first (whole ▸ List.mem_cons_self))
  | nil =>
    rw [whole, List.nil_append] at head
    have behind := n.ne_nil.resolve_left (fun digits => digits whole)
    cases point : n.fraction with
    | none =>
      rw [point] at behind
      exact absurd rfl behind
    | some digits =>
      rw [point] at head
      obtain rfl : '.' = c := by simpa [pointText] using head
      exact Or.inr rfl

end Spelling

namespace Decimal

open Spelling

/-! ## The sign -/

theorem readSign_append {sign rest : List Char} (signed : IsSign sign)
    (ends : ∀ c ∈ rest.head?, c.isDigit = true ∨ c = '.') :
    readSign (sign ++ rest) = (isMinus sign, rest) := by
  rcases signed with rfl | rfl | rfl
  · cases rest with
    | nil => rfl
    | cons c rest =>
      rcases ends c rfl with digit | rfl
      · exact Numeral.readSign_of_digit digit rest
      · rfl
  · rfl
  · rfl

/-- A text is the sign that is read from it and the rest. -/
theorem exists_of_readSign (text : List Char) : ∃ sign, IsSign sign ∧
    text = sign ++ (readSign text).2 ∧ isMinus sign = (readSign text).1 := by
  unfold readSign
  split
  · exact ⟨['-'], Or.inr (Or.inr rfl), rfl, rfl⟩
  · exact ⟨['+'], Or.inr (Or.inl rfl), rfl, rfl⟩
  · exact ⟨[], Or.inl rfl, rfl, rfl⟩

/-! ## The fraction -/

theorem readFraction_append {fraction : Option (List Char)} {rest : List Char}
    (digit : ∀ c ∈ fraction.getD [], c.isDigit = true)
    (ends : ∀ c ∈ rest.head?, c.isDigit = false ∧ c ≠ '.') :
    readFraction (pointText fraction ++ rest) = (fraction.getD [], rest) := by
  cases fraction with
  | none =>
    unfold readFraction
    split
    · rename_i point
      have head : (pointText none ++ rest).head? = some '.' := by rw [point]; rfl
      exact absurd rfl (ends '.' head).2
    · rfl
  | some digits =>
    have split := Numeral.takeWhile_digits digit fun c head => (ends c head).1
    show ((digits ++ rest).takeWhile _, (digits ++ rest).dropWhile _) = _
    rw [Option.getD_some] at split
    rw [split.1, split.2, Option.getD_some]

theorem all_takeWhile_digits (text : List Char) :
    ∀ c ∈ text.takeWhile Char.isDigit, c.isDigit = true :=
  List.all_eq_true.mp List.all_takeWhile

theorem exists_of_readFraction (text : List Char) : ∃ fraction : Option (List Char),
    fraction.getD [] = (readFraction text).1 ∧ text = pointText fraction ++ (readFraction text).2 ∧
      ∀ c ∈ fraction.getD [], c.isDigit = true := by
  unfold readFraction
  split
  · rename_i rest
    refine ⟨some (rest.takeWhile Char.isDigit), rfl, ?_, all_takeWhile_digits rest⟩
    rw [pointText, List.cons_append, List.takeWhile_append_dropWhile]
  · exact ⟨none, rfl, rfl, by simp⟩

/-! ## The exponent -/

theorem readExponent?_text (p : Power) : readExponent? p.text = some p.exponent := by
  have sign : readSign (p.sign ++ p.digits) = (isMinus p.sign, p.digits) :=
    readSign_append p.signed fun c head => Or.inl (p.isDigit c (List.mem_of_mem_head? head))
  have mark : (p.mark == 'e' || p.mark == 'E') = true := by
    rcases p.marked with mark | mark <;> rw [mark] <;> rfl
  have nonempty : p.digits.isEmpty = false := List.isEmpty_eq_false_iff.mpr p.ne_nil
  have all : p.digits.all Char.isDigit = true := List.all_eq_true.mpr p.isDigit
  simp only [Power.text, readExponent?, sign, mark, nonempty, all]
  rfl

theorem readExponent?_eq_some_iff {rest : List Char} {exponent : Int} :
    readExponent? rest = some exponent ↔
      ∃ power, powerText power = rest ∧ powerValue power = exponent := by
  constructor
  · intro read
    cases rest with
    | nil => exact ⟨none, rfl, Option.some.inj read⟩
    | cons mark rest =>
      obtain ⟨sign, signed, whole, minus⟩ := exists_of_readSign rest
      simp only [readExponent?, Option.ite_none_right_eq_some, Bool.and_eq_true, Bool.or_eq_true,
        beq_iff_eq, Bool.not_eq_true', List.isEmpty_eq_false_iff, List.all_eq_true,
        Option.some.injEq] at read
      obtain ⟨⟨⟨marked, ne_nil⟩, isDigit⟩, read⟩ := read
      refine ⟨some ⟨mark, sign, _, marked, signed, isDigit, ne_nil⟩, ?_, ?_⟩
      · show mark :: (sign ++ _) = _
        rw [← whole]
      · rw [← read, ← minus]
        rfl
  · rintro ⟨power, rfl, rfl⟩
    cases power with
    | none => rfl
    | some p => exact readExponent?_text p

/-! ## The numeral -/

theorem read?_text (n : Spelling) : read? n.text = some (n.negative, n.decimal) := by
  have sign : readSign n.text = (n.negative, n.body) := readSign_append n.signed n.head_body
  obtain ⟨whole, behind⟩ := Numeral.takeWhile_digits n.isDigit_whole n.head_pointText
  have fraction := readFraction_append n.isDigit_fraction (head_powerText n.power)
  have exponent := readExponent?_eq_some_iff.mpr ⟨n.power, rfl, rfl⟩
  have filled : (n.whole.isEmpty && (n.fraction.getD []).isEmpty) = false := by
    rw [Bool.and_eq_false_iff, List.isEmpty_eq_false_iff, List.isEmpty_eq_false_iff]
    exact n.ne_nil
  simp only [read?, sign, body, whole, behind, fraction, filled, exponent]
  rfl

/-- The reader accepts the spellings of numbers and nothing else. -/
theorem read?_eq_some_iff {word : List Char} {negative : Bool} {d : Decimal} :
    read? word = some (negative, d) ↔
      ∃ n : Spelling, n.text = word ∧ n.negative = negative ∧ n.decimal = d := by
  constructor
  · intro read
    obtain ⟨sign, signed, sign_text, minus⟩ := exists_of_readSign word
    let body := (readSign word).2
    obtain ⟨fraction, digits, fraction_text, isDigit_fraction⟩ :=
      exists_of_readFraction (body.dropWhile Char.isDigit)
    simp only [read?, Option.ite_none_left_eq_some, Bool.and_eq_true, List.isEmpty_iff,
      not_and_or, Option.map_eq_some_iff, Prod.mk.injEq] at read
    rw [← digits] at read
    obtain ⟨ne_nil, exponent, readExponent, rfl, rfl⟩ := read
    obtain ⟨power, power_text, rfl⟩ := readExponent?_eq_some_iff.mp readExponent
    refine ⟨⟨sign, body.takeWhile Char.isDigit, fraction, power, signed, all_takeWhile_digits body,
      isDigit_fraction, ne_nil⟩, ?_, minus, ?_⟩
    · have body_text : body.takeWhile Char.isDigit ++ (pointText fraction ++ powerText power) =
          body := by
        rw [power_text, ← fraction_text, List.takeWhile_append_dropWhile]
      show sign ++ (_ ++ _) = _
      rw [body_text, ← sign_text]
    · rfl
  · rintro ⟨n, rfl, rfl, rfl⟩
    exact read?_text n

end Decimal

end TimingSweep
