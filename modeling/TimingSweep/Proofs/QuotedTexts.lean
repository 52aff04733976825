import TimingSweep.Json.Scanner
import TimingSweep.Proofs.AcceptedTimes

/-!
# Quoted texts read back

What a benchmark prints in place of a time is told in quotes. A reader that ends at the first quote
without a backslash finds the whole text again, so nothing of it gets out of its quotes, and nothing
that is written controls a terminal or begins a line.

* `toDigits_induction`: numbers in hexadecimal digits, one digit after another;
* `Unquoting.run?_numbered`: a number in hexadecimal digits is read back;
* `Unquoting.run?_escape`, `unquote?_quote`: so is each character, and the text;
* `isGraphic_of_mem_quote`: only graphic characters are written;
* `malformed_told_in_quotes`: all this for the message about an output without a time.
-/

namespace TimingSweep

/-! ## Control characters -/

/-- The characters of the general category Cc. -/
def IsControl (c : Char) : Prop := c.toNat < 32 ∨ 127 ≤ c.toNat ∧ c.toNat < 160

instance (c : Char) : Decidable (IsControl c) :=
  inferInstanceAs (Decidable (c.toNat < 32 ∨ 127 ≤ c.toNat ∧ c.toNat < 160))

theorem not_isControl_of_isGraphic {c : Char} (graphic : isGraphic c = true) : ¬ IsControl c := by
  have low : ∀ n < 160, isGraphic (Char.ofNat n) = true → 32 ≤ n ∧ n < 127 := by decide +kernel
  intro control
  have bounds := low c.toNat (by unfold IsControl at control; omega) (by rwa [Char.ofNat_toNat])
  unfold IsControl at control
  omega

namespace Quoted

/-! ## Reading -/

/-- What a letter behind a backslash stands for. -/
def named? : Char → Option Char
  | '0' => some '\x00'
  | 't' => some '\t'
  | 'n' => some '\n'
  | 'r' => some '\r'
  | '"' => some '"'
  | '\\' => some '\\'
  | _ => none

/-- How far a quoted text has been read: not at all; within its quotes, and there perhaps behind a
backslash, behind its `u`, behind an opening brace, or behind digits; or up to the closing quote.
What has been read is given backwards. -/
inductive Unquoting where
  | before
  | within (read : List Char)
  | started (read : List Char)
  | marked (read : List Char)
  | braced (read : List Char)
  | digits (read : List Char) (value : Nat)
  | closed (read : List Char)
  deriving DecidableEq

namespace Unquoting

/-- Nothing may follow the closing quote. -/
def step? : Unquoting → Char → Option Unquoting
  | .before, c => if c = '"' then some (.within []) else none
  | .within read, c =>
    some (if c = '"' then .closed read else if c = '\\' then .started read else .within (c :: read))
  | .started read, c =>
    if c = 'u' then some (.marked read) else (named? c).map fun meant => .within (meant :: read)
  | .marked read, c => if c = '{' then some (.braced read) else none
  | .braced read, c => (Json.hexDigit? c).map (.digits read)
  | .digits read value, c =>
    if c = '}' then
      if value.isValidChar then some (.within (Char.ofNat value :: read)) else none
    else (Json.hexDigit? c).map fun digit => .digits read (16 * value + digit)
  | .closed _, _ => none

def run? (reading : Unquoting) (text : List Char) : Option Unquoting := text.foldlM step? reading

def finish? : Unquoting → Option (List Char)
  | .closed read => some read.reverse
  | _ => none

end Unquoting

/-- Reads a text that is wholly in quotes. -/
def unquote? (text : List Char) : Option (List Char) :=
  Unquoting.run? .before text >>= Unquoting.finish?

/-! ## Reading what is written -/

/-- A character is written with a letter, or by its number, or stands for itself. -/
theorem escape_cases (c : Char) :
    (∃ letter ∈ ['0', 't', 'n', 'r', '"', '\\'], named? letter = some c ∧
      escape c = ['\\', letter]) ∨
    escape c = numbered c ∨
    isGraphic c = true ∧ c ≠ '"' ∧ c ≠ '\\' ∧ escape c = [c] := by
  by_cases named : ∃ letter ∈ ['0', 't', 'n', 'r', '"', '\\'], named? letter = some c
  · obtain ⟨letter, known, meant⟩ := named
    refine Or.inl ⟨letter, known, meant, ?_⟩
    simp only [List.mem_cons, List.not_mem_nil, or_false] at known
    rcases known with rfl | rfl | rfl | rfl | rfl | rfl <;> cases meant <;> rfl
  · have unnamed : ∀ letter ∈ ['0', 't', 'n', 'r', '"', '\\'], ∀ d, named? letter = some d →
        c ≠ d := by
      rintro letter known d meant rfl
      exact named ⟨letter, known, meant⟩
    have null := unnamed '0' (by decide) _ rfl
    have tab := unnamed 't' (by decide) _ rfl
    have lineFeed := unnamed 'n' (by decide) _ rfl
    have carriageReturn := unnamed 'r' (by decide) _ rfl
    have quote := unnamed '"' (by decide) _ rfl
    have backslash := unnamed '\\' (by decide) _ rfl
    right
    by_cases kept : (extendsGrapheme c || !isGraphic c) = true
    · left
      simp [escape, null, tab, lineFeed, carriageReturn, quote, backslash, kept]
    · right
      rw [Bool.or_eq_true, not_or, Bool.not_eq_true, Bool.not_eq_true, Bool.not_eq_false'] at kept
      exact ⟨kept.2, quote, backslash, escape_of_graphic kept.2 kept.1 ⟨quote, backslash⟩⟩

/-- The hexadecimal digits of a number, from the first one on. -/
theorem toDigits_induction {motive : Nat → List Char → Prop}
    (single : ∀ d < 16, motive d [Nat.digitChar d])
    (append : ∀ n, ∀ d < 16, motive n (Nat.toDigits 16 n) →
      motive (16 * n + d) (Nat.toDigits 16 n ++ [Nat.digitChar d])) (n : Nat) :
    motive n (Nat.toDigits 16 n) := by
  induction n using Nat.strongRecOn with
  | ind n ih =>
    by_cases small : n < 16
    · rw [Nat.toDigits_of_lt_base small]
      exact single n small
    · have earlier := append (n / 16) (n % 16) (Nat.mod_lt n (by decide)) (ih _ (by omega))
      rw [Nat.div_add_mod] at earlier
      rwa [Nat.toDigits_of_base_le (by decide) (Nat.le_of_not_lt small)]

namespace Unquoting

variable (read : List Char)

theorem run?_cons (reading : Unquoting) (c : Char) (rest : List Char) :
    run? reading (c :: rest) = (reading.step? c).bind fun later => run? later rest :=
  List.foldlM_cons

theorem run?_append (reading : Unquoting) (first rest : List Char) :
    run? reading (first ++ rest) = (run? reading first).bind fun later => run? later rest :=
  List.foldlM_append

theorem run?_digits (n : Nat) :
    run? (.braced read) (Nat.toDigits 16 n) = some (.digits read n) := by
  have digit : ∀ d < 16, Nat.digitChar d ≠ '}' ∧ Json.hexDigit? (Nat.digitChar d) = some d := by
    decide
  induction n using toDigits_induction with
  | single d small =>
    rw [run?_cons, step?, (digit d small).2]
    rfl
  | append n d small ih =>
    obtain ⟨other, value⟩ := digit d small
    rw [run?_append, ih, Option.bind_some, run?_cons, step?, if_neg other, value]
    rfl

/-- A character that is given by its number. -/
theorem run?_numbered (c : Char) :
    run? (.within read) (numbered c) = some (.within (c :: read)) := by
  have valid : c.toNat.isValidChar := c.valid
  rw [numbered, List.append_assoc, run?_append]
  show (run? (.braced read) (Nat.toDigits 16 c.toNat ++ ['}'])) = _
  rw [run?_append, run?_digits, Option.bind_some, run?_cons, step?, if_pos rfl, if_pos valid,
    Char.ofNat_toNat]
  rfl

/-- A character that is given by a letter. -/
theorem run?_named {letter c : Char} (meant : named? letter = some c) :
    run? (.within read) ['\\', letter] = some (.within (c :: read)) := by
  have other : letter ≠ 'u' := by
    rintro rfl
    cases meant
  show run? (.started read) [letter] = _
  rw [run?_cons, step?, if_neg other, meant]
  rfl

theorem run?_escape (c : Char) : run? (.within read) (escape c) = some (.within (c :: read)) := by
  rcases escape_cases c with ⟨letter, -, meant, written⟩ | written | ⟨-, quote, backslash, written⟩
  · rw [written, run?_named read meant]
  · rw [written, run?_numbered]
  · rw [written, run?_cons, step?, if_neg quote, if_neg backslash]
    rfl

theorem run?_escapes (text : List Char) :
    run? (.within read) (text.flatMap escape) = some (.within (text.reverse ++ read)) := by
  induction text generalizing read with
  | nil => rfl
  | cons c rest ih =>
    rw [List.flatMap_cons, run?_append, run?_escape, Option.bind_some, ih, List.reverse_cons,
      List.append_assoc]
    rfl

end Unquoting

/-- A text is read back from its quotes. -/
theorem unquote?_quote (text : List Char) : unquote? (quote text) = some text := by
  have opened : Unquoting.run? .before (quote text) = some (.closed text.reverse) := by
    show Unquoting.run? (.within []) (text.flatMap escape ++ ['"']) = _
    rw [Unquoting.run?_append, Unquoting.run?_escapes, Option.bind_some, List.append_nil]
    rfl
  rw [unquote?, opened]
  show some text.reverse.reverse = _
  rw [List.reverse_reverse]

/-! ## What is written -/

theorem exists_of_mem_toDigits {n : Nat} {c : Char} (member : c ∈ Nat.toDigits 16 n) :
    ∃ digit < 16, c = Nat.digitChar digit := by
  induction n using toDigits_induction with
  | single d small => exact ⟨d, small, List.mem_singleton.mp member⟩
  | append n d small ih =>
    rcases List.mem_append.mp member with earlier | last
    · exact ih earlier
    · exact ⟨d, small, List.mem_singleton.mp last⟩

theorem isGraphic_of_printable {c : Char} (low : 32 ≤ c.toNat) (high : c.toNat ≤ 126) :
    isGraphic c = true := by
  have ascii := isGraphic_of_ascii c.toNat (by omega)
  rw [Char.ofNat_toNat] at ascii
  rw [ascii, decide_eq_true_eq]
  exact ⟨low, high⟩

theorem isGraphic_of_mem_numbered {c d : Char} (member : d ∈ numbered c) : isGraphic d = true := by
  have digits : ∀ digit < 16, isGraphic (Nat.digitChar digit) = true := by decide +kernel
  simp only [numbered, List.mem_append, List.mem_cons, List.not_mem_nil, or_false] at member
  rcases member with ((rfl | rfl | rfl) | digit) | rfl
  · exact isGraphic_of_printable (by decide) (by decide)
  · exact isGraphic_of_printable (by decide) (by decide)
  · exact isGraphic_of_printable (by decide) (by decide)
  · obtain ⟨value, small, rfl⟩ := exists_of_mem_toDigits digit
    exact digits value small
  · exact isGraphic_of_printable (by decide) (by decide)

theorem isGraphic_of_mem_escape {c d : Char} (member : d ∈ escape c) : isGraphic d = true := by
  rcases escape_cases c with ⟨letter, known, -, written⟩ | written | ⟨graphic, -, -, written⟩
  · simp only [List.mem_cons, List.not_mem_nil, or_false] at known
    rw [written] at member
    rcases List.mem_cons.mp member with rfl | member
    · exact isGraphic_of_printable (by decide) (by decide)
    · rw [List.mem_singleton.mp member]
      rcases known with rfl | rfl | rfl | rfl | rfl | rfl <;>
        exact isGraphic_of_printable (by decide) (by decide)
  · exact isGraphic_of_mem_numbered (written ▸ member)
  · rw [written, List.mem_singleton] at member
    rwa [member]

theorem isGraphic_of_mem_quote {text : List Char} {d : Char} (member : d ∈ quote text) :
    isGraphic d = true := by
  have mark : isGraphic '"' = true := isGraphic_of_printable (by decide) (by decide)
  simp only [quote, List.mem_cons, List.mem_append, List.mem_flatMap, List.not_mem_nil,
    or_false] at member
  rcases member with rfl | ⟨c, -, written⟩ | rfl
  · exact mark
  · exact isGraphic_of_mem_escape written
  · exact mark

end Quoted

/-! ## Outputs without a time -/

namespace TimeFault

theorem toList_message (text : List Char) :
    (malformed text).message.toList = "unparseable time value: ".toList ++ Quoted.quote text := by
  have told : (malformed text).message =
      "unparseable time value: " ++ .ofList (Quoted.quote text) := rfl
  have quoted : (String.ofList (Quoted.quote text)).toList = Quoted.quote text :=
    String.toList_ofList
  rw [told, String.toList_append, quoted]

theorem isGraphic_of_mem_message {text : List Char} {c : Char}
    (member : c ∈ (malformed text).message.toList) : isGraphic c = true := by
  have announced : ∀ c ∈ "unparseable time value: ".toList, isGraphic c = true :=
    List.all_eq_true.mp (by decide +kernel)
  rw [toList_message, List.mem_append] at member
  rcases member with front | quoted
  · exact announced c front
  · exact Quoted.isGraphic_of_mem_quote quoted

end TimeFault

namespace TimeLine

variable {output text : List Char}

theorem read_eq_malformed (malformed : read output = .error (.malformed text)) :
    ∃ rest, IsLast output rest ∧ IsTrimmed rest text := by
  cases last : last? output with
  | none =>
    rw [read_of_noTimeLine last] at malformed
    cases malformed
  | some rest =>
    rw [read_of_last last] at malformed
    refine ⟨rest, last?_eq_some_iff.mp last, trim_eq_iff.mp ?_⟩
    rcases time_eq_ok_or_malformed rest with ⟨x, accepted⟩ | refused
    · rw [malformed] at accepted
      cases accepted
    · rw [malformed] at refused
      cases refused
      rfl

/-- What an output has in place of a time is told behind an announcement, in quotes from which it is
read back, so that different texts are told differently. All that is told is graphic. -/
theorem malformed_told_in_quotes (malformed : read output = .error (.malformed text)) :
    (∃ rest, IsLast output rest ∧ IsTrimmed rest text) ∧
    (∃ quoted, (TimeFault.malformed text).message.toList =
        "unparseable time value: ".toList ++ quoted ∧ Quoted.unquote? quoted = some text) ∧
    (∀ c ∈ (TimeFault.malformed text).message.toList, isGraphic c = true ∧ ¬ IsControl c) ∧
    ∀ other, (TimeFault.malformed other).message = (TimeFault.malformed text).message →
      other = text := by
  refine ⟨read_eq_malformed malformed, ⟨Quoted.quote text, TimeFault.toList_message text,
    Quoted.unquote?_quote text⟩, fun c member => ?_, fun other same => ?_⟩
  · have graphic := TimeFault.isGraphic_of_mem_message member
    exact ⟨graphic, not_isControl_of_isGraphic graphic⟩
  · have lists := congrArg String.toList same
    rw [TimeFault.toList_message, TimeFault.toList_message, List.append_cancel_left_eq] at lists
    have read := Quoted.unquote?_quote other
    rw [lists, Quoted.unquote?_quote, Option.some.injEq] at read
    exact read.symm

/-- A false end of the text, a line of its own, an escape that turns a terminal red, and an accent
that would stand on the quote. -/
theorem forged_line_told_in_quotes :
    let text := "x\"\\ 0\r\x1b[31m e\u0301".toList
    let output := "time: 5\ntime: ".toList ++ text ++ " \nsize: 2".toList
    read output = .error (.malformed text) ∧
    (TimeFault.malformed text).message =
      "unparseable time value: \"x\\\"\\\\ 0\\r\\u\x7b1b\x7d[31m e\\u\x7b301\x7d\"" ∧
    ∃ quoted, (TimeFault.malformed text).message.toList =
        "unparseable time value: ".toList ++ quoted ∧ Quoted.unquote? quoted = some text := by
  intro text output
  have malformed : read output = .error (.malformed text) := by decide +kernel
  obtain ⟨-, quoted, -⟩ := malformed_told_in_quotes malformed
  exact ⟨malformed, by decide +kernel, quoted⟩

end TimeLine

end TimingSweep
