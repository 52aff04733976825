import TimingSweep.Json.Fault

/-!
# Scanning JSON

A `Scanner` reads octets one at a time and reports what it recognises as an `Event`. It remembers
the open brackets and which token may come next. A `Consumer` takes the events in order and may
refuse one; `Consumer.read` runs both over a text and stops at the first fault.

What is read for its content is read strictly: a surrogate in an escape has its partner, and a
numeral that breaks off at the end of the text might have gone on. What is skipped need only have
the shape of a token.

* `feed_append`: octets can be fed piece by piece;
* `read_eq_ok`: a text is read exactly if feeding it and ending there both succeed.
-/

namespace TimingSweep.Json

inductive Word where
  | null
  | true
  | false
  deriving DecidableEq

def Word.letters : Word → List Char
  | .null => "null".toList
  | .true => "true".toList
  | .false => "false".toList

/-- What a text consists of. Content of strings is in octets with the escapes resolved, a numeral is
as it was written. -/
inductive Event where
  | word (w : Word)
  | numeral (literal : List Char)
  | text (content : List UInt8)
  | name (content : List UInt8)
  | listBegin
  | listEnd
  | recordBegin
  | recordEnd
  | comma
  deriving DecidableEq

/-- How far a numeral has been read. -/
inductive NumeralStage where
  | sign
  | zero
  | whole
  | point
  | fraction
  | mark
  | markSign
  | exponent
  deriving DecidableEq

namespace NumeralStage

/-- The stage after one more character, if it can follow. A leading zero is alone. -/
def next? : NumeralStage → Char → Option NumeralStage
  | .sign, c => if c = '0' then some .zero else if c.isDigit then some .whole else none
  | .zero, c => if c = '.' then some .point else if c = 'e' || c = 'E' then some .mark else none
  | .whole, c =>
    if c.isDigit then some .whole else if c = '.' then some .point
    else if c = 'e' || c = 'E' then some .mark else none
  | .point, c => if c.isDigit then some .fraction else none
  | .fraction, c =>
    if c.isDigit then some .fraction else if c = 'e' || c = 'E' then some .mark else none
  | .mark, c =>
    if c = '+' || c = '-' then some .markSign else if c.isDigit then some .exponent else none
  | .markSign, c => if c.isDigit then some .exponent else none
  | .exponent, c => if c.isDigit then some .exponent else none

def isComplete : NumeralStage → Bool
  | .zero | .whole | .fraction | .exponent => true
  | .sign | .point | .mark | .markSign => false

/-- A numeral ends before a character that cannot follow; only a digit after a leading zero is
refused instead. -/
def endsBefore (stage : NumeralStage) (c : Char) : Bool :=
  stage.isComplete && (stage.next? c).isNone && !(stage = .zero && c.isDigit)

end NumeralStage

/-- How far an escape within a string has been read. `lead` is a surrogate that still needs its
partner. -/
inductive Escape where
  | none
  | started
  | digits (lead : Option Nat) (read : List Char)
  | partnerStart (lead : Nat)
  | partnerMark (lead : Nat)
  deriving DecidableEq

/-- The value of a hexadecimal digit. -/
def hexDigit? (c : Char) : Option Nat :=
  if c.isDigit then some (c.toNat - '0'.toNat)
  else if 'a' ≤ c && c ≤ 'f' then some (c.toNat - 'a'.toNat + 10)
  else if 'A' ≤ c && c ≤ 'F' then some (c.toNat - 'A'.toNat + 10)
  else none

/-- What a letter after a backslash stands for. -/
def named? : Char → Option Char
  | '"' => some '"'
  | '\\' => some '\\'
  | '/' => some '/'
  | 'b' => some '\x08'
  | 'f' => some '\x0c'
  | 'n' => some '\n'
  | 'r' => some '\r'
  | 't' => some '\t'
  | _ => none

inductive Enclosure where
  | list
  | record
  deriving DecidableEq

/-- What may come next: a value or a member's name, after an opening bracket also the closing one;
the colon after a name; a comma or closing bracket; the rest of a token; nothing but blanks. Content
and literals are kept backwards. -/
inductive Phase where
  | value (mayClose : Bool)
  | member (mayClose : Bool)
  | colon
  | next
  | done
  | word (w : Word) (rest : List Char)
  | numeral (stage : NumeralStage) (literal : List Char)
  | text (asName : Bool) (escape : Escape) (content : List UInt8)
  deriving DecidableEq

/-- The open brackets, innermost first, and what may come next. -/
structure Scanner where
  enclosures : List Enclosure
  phase : Phase
  deriving DecidableEq

namespace Scanner

def start : Scanner := ⟨[], .value false⟩

/-- After a value. -/
def after (enclosures : List Enclosure) : Scanner :=
  ⟨enclosures, if enclosures.isEmpty then .done else .next⟩

def isBlank (c : Char) : Bool := c = ' ' || c = '\n' || c = '\t' || c = '\r'

/-- The first character of a value. -/
def openValue (enclosures : List Enclosure) (c : Char) : Except Fault (Option Event × Scanner) :=
  if c = '"' then .ok (none, ⟨enclosures, .text false .none []⟩)
  else if c = '[' then .ok (some .listBegin, ⟨.list :: enclosures, .value true⟩)
  else if c = '\x7b' then .ok (some .recordBegin, ⟨.record :: enclosures, .member true⟩)
  else if c = '-' then .ok (none, ⟨enclosures, .numeral .sign [c]⟩)
  else if c = '0' then .ok (none, ⟨enclosures, .numeral .zero [c]⟩)
  else if c.isDigit then .ok (none, ⟨enclosures, .numeral .whole [c]⟩)
  else if c = 'n' then .ok (none, ⟨enclosures, .word .null ['u', 'l', 'l']⟩)
  else if c = 't' then .ok (none, ⟨enclosures, .word .true ['r', 'u', 'e']⟩)
  else if c = 'f' then .ok (none, ⟨enclosures, .word .false ['a', 'l', 's', 'e']⟩)
  else .error .malformed

/-- A comma or a closing bracket, which has to fit the innermost enclosure. -/
def separate : List Enclosure → Char → Except Fault (Option Event × Scanner)
  | .list :: outer, c =>
    if c = ',' then .ok (some .comma, ⟨.list :: outer, .value false⟩)
    else if c = ']' then .ok (some .listEnd, after outer)
    else .error .malformed
  | .record :: outer, c =>
    if c = ',' then .ok (some .comma, ⟨.record :: outer, .member false⟩)
    else if c = '\x7d' then .ok (some .recordEnd, after outer)
    else .error .malformed
  | [], _ => .error .malformed

/-- The unit of UTF-16 given by four hexadecimal digits: a surrogate pair is one character. -/
def unit (strict : Bool) (lead : Option Nat) (n : Nat) : Except Fault (Escape × List UInt8) :=
  match lead with
  | some high =>
    if 0xDC00 ≤ n && n ≤ 0xDFFF then
      let pair := 0x10000 + (high - 0xD800) * 0x400 + (n - 0xDC00)
      .ok (.none, String.utf8EncodeChar (Char.ofNat pair))
    else .error .malformed
  | none =>
    if !strict || n < 0xD800 || 0xDFFF < n then .ok (.none, String.utf8EncodeChar (Char.ofNat n))
    else if n < 0xDC00 then .ok (.partnerStart n, [])
    else .error .malformed

/-- A character of a string, and how it continues the escape before it: the octets that are thereby
known. The closing quote is not seen here. -/
def spell (strict : Bool) (c : Char) (octet : UInt8) :
    Escape → Except Fault (Escape × List UInt8)
  | .none =>
    if c = '\\' then .ok (.started, [])
    else if c < ' ' then .error .malformed
    else .ok (.none, [octet])
  | .started =>
    if c = 'u' then .ok (.digits none [], [])
    else match named? c with
      | some meant => .ok (.none, String.utf8EncodeChar meant)
      | none => .error .malformed
  | .digits lead read =>
    let digits := read ++ [c]
    if digits.length < 4 then .ok (.digits lead digits, [])
    else match digits.mapM hexDigit? with
      | some values => unit strict lead (values.foldl (fun n d => 16 * n + d) 0)
      | none => .error .malformed
  | .partnerStart lead => if c = '\\' then .ok (.partnerMark lead, []) else .error .malformed
  | .partnerMark lead => if c = 'u' then .ok (.digits (some lead) [], []) else .error .malformed

/-- Ends a numeral before an octet that cannot continue it. -/
def settle (s : Scanner) (octet : UInt8) : Option Event × Scanner :=
  match s.phase with
  | .numeral stage literal =>
    if stage.endsBefore (Char.ofNat octet.toNat) then
      (some (.numeral literal.reverse), after s.enclosures)
    else (none, s)
  | _ => (none, s)

/-- Reads an octet that no numeral ends before. -/
def advance (strict : Bool) (s : Scanner) (octet : UInt8) : Except Fault (Option Event × Scanner) :=
  let c := Char.ofNat octet.toNat
  match s.phase with
  | .value mayClose =>
    if isBlank c then .ok (none, s)
    else if mayClose && c = ']' then .ok (some .listEnd, after s.enclosures.tail)
    else openValue s.enclosures c
  | .member mayClose =>
    if isBlank c then .ok (none, s)
    else if c = '"' then .ok (none, ⟨s.enclosures, .text true .none []⟩)
    else if mayClose && c = '\x7d' then .ok (some .recordEnd, after s.enclosures.tail)
    else .error .malformed
  | .colon =>
    if isBlank c then .ok (none, s)
    else if c = ':' then .ok (none, ⟨s.enclosures, .value false⟩)
    else .error .malformed
  | .next => if isBlank c then .ok (none, s) else separate s.enclosures c
  | .done => if isBlank c then .ok (none, s) else .error .malformed
  | .word w rest =>
    if rest = [c] then .ok (some (.word w), after s.enclosures)
    else if rest.head? = some c then .ok (none, ⟨s.enclosures, .word w rest.tail⟩)
    else .error .malformed
  | .numeral stage literal =>
    match stage.next? c with
    | some later => .ok (none, ⟨s.enclosures, .numeral later (c :: literal)⟩)
    | none => .error .malformed
  | .text asName escape content =>
    if escape = .none && c = '"' then
      if asName then .ok (some (.name content.reverse), ⟨s.enclosures, .colon⟩)
      else .ok (some (.text content.reverse), after s.enclosures)
    else match spell strict c octet escape with
      | .ok (later, octets) =>
        .ok (none, ⟨s.enclosures, .text asName later (octets.reverse ++ content)⟩)
      | .error fault => .error fault

/-- The end of the text: it may end a numeral, and is a fault inside any other value. -/
def finish (strict : Bool) (s : Scanner) : Option Event × Except Fault Unit :=
  match s.phase with
  | .done => (none, .ok ())
  | .numeral stage literal =>
    if stage.isComplete then
      (some (.numeral literal.reverse),
        if s.enclosures.isEmpty then .ok () else .error .truncated)
    else (none, .error (if strict then .truncated else .malformed))
  | _ => (none, .error .truncated)

end Scanner

/-- Takes the events of a text in order. `strict` tells whether the token under way is read for its
content. -/
structure Consumer (σ : Type) where
  strict : σ → Bool
  accept : σ → Event → Except Fault σ

namespace Consumer

variable {σ : Type}

/-- An event, if there is one. -/
def take (k : Consumer σ) (state : σ) : Option Event → Except Fault σ
  | none => .ok state
  | some event => k.accept state event

/-- Reads one octet: first a numeral may end before it, then it is read itself. -/
def step (k : Consumer σ) (here : σ × Scanner) (octet : UInt8) : Except Fault (σ × Scanner) := do
  let (ended, scanner) := here.2.settle octet
  let state ← k.take here.1 ended
  let (event, scanner) ← scanner.advance (k.strict state) octet
  let state ← k.take state event
  pure (state, scanner)

def feed (k : Consumer σ) (here : σ × Scanner) (octets : List UInt8) : Except Fault (σ × Scanner) :=
  octets.foldlM k.step here

/-- The end of the text. -/
def finish (k : Consumer σ) (here : σ × Scanner) : Except Fault σ := do
  let (ended, complete) := here.2.finish (k.strict here.1)
  let state ← k.take here.1 ended
  complete
  pure state

def read (k : Consumer σ) (start : σ) (octets : List UInt8) : Except Fault σ :=
  k.feed (start, Scanner.start) octets >>= k.finish

theorem feed_append (k : Consumer σ) (here : σ × Scanner) (a b : List UInt8) :
    k.feed here (a ++ b) = k.feed here a >>= fun later => k.feed later b :=
  List.foldlM_append

theorem read_eq_ok {k : Consumer σ} {start : σ} {octets : List UInt8} {result : σ} :
    k.read start octets = .ok result ↔
      ∃ last, k.feed (start, Scanner.start) octets = .ok last ∧ k.finish last = .ok result := by
  unfold read
  cases k.feed (start, Scanner.start) octets with
  | error fault => simp [bind, Except.bind]
  | ok last => simp [bind, Except.bind]

end Consumer

end TimingSweep.Json
