import TimingSweep.Json.Scanner
import TimingSweep.Number.Decimal
import TimingSweep.Request
import TimingSweep.Text.Utf8

/-!
# Reading requests

`Request.read` reads a request from JSON text. It is a record with one member for each field, in any
order, or a list of the fields in their order. Other members are skipped; a field given twice, a
field that is missing and a value of another shape are mismatches.
-/

namespace TimingSweep.Request

/-- The fields, in their order. -/
inductive Field where
  | algorithm
  | sizes
  | competitors
  deriving DecidableEq

def Field.ofName? (name : List Char) : Option Field :=
  if name = "algorithm".toList then some .algorithm
  else if name = "sizes".toList then some .sizes
  else if name = "competitors".toList then some .competitors
  else none

/-- The fields that have been read. -/
structure Draft where
  algorithm : Option String
  sizes : Option (List UInt64)
  competitors : Option (List String)

namespace Draft

def empty : Draft := ⟨none, none, none⟩

def has (d : Draft) : Field → Bool
  | .algorithm => d.algorithm.isSome
  | .sizes => d.sizes.isSome
  | .competitors => d.competitors.isSome

/-- The first field that has not been read. -/
def missing? (d : Draft) : Option Field :=
  [Field.algorithm, .sizes, .competitors].find? fun field => !d.has field

/-- The request, once all fields are there. -/
def request? (d : Draft) : Option Request :=
  match d.algorithm, d.sizes, d.competitors with
  | some algorithm, some sizes, some competitors => some ⟨algorithm, sizes, competitors⟩
  | _, _, _ => none

end Draft

/-- Where in a request the text is: before it, between its fields, before the value of a field, in
one of its two lists with the items so far backwards, inside a member that is skipped, or after
it. -/
inductive Position where
  | before
  | between
  | value (field : Field)
  | sizes (read : List UInt64)
  | competitors (read : List String)
  | skipped (depth : Nat)
  | after
  deriving DecidableEq

/-- How far a request has been read. `named` tells a record from a list. -/
structure Reading where
  named : Bool
  draft : Draft
  position : Position

/-- The text of a string, which has to be UTF-8. -/
def text (content : List UInt8) : Except Json.Fault String :=
  match Utf8.decode? content with
  | some chars => .ok (.ofList chars)
  | none => .error .malformed

/-- Reads digits into a significand that stays below `2 ^ 64`, and says how many were left. -/
def absorb (significand : Nat) : List Char → Nat × Nat
  | [] => (significand, 0)
  | digit :: rest =>
    let more := 10 * significand + (digit.toNat - '0'.toNat)
    if more < 2 ^ 64 then absorb more rest else (significand, rest.length + 1)

/-- Whether a numeral is beyond the doubles: its first digits, rounded, times the power of ten,
rounded, are infinite. -/
def exceedsDoubles (literal : List Char) : Bool :=
  let body := (Decimal.readSign literal).2
  let whole := body.takeWhile Char.isDigit
  let (fraction, rest) := Decimal.readFraction (body.dropWhile Char.isDigit)
  let (leading, unread) := absorb 0 whole
  let (significand, unused) := absorb leading fraction
  match Decimal.readExponent? rest with
  | none => false
  | some power =>
    let exponent := power + unread - (fraction.length - unused : Nat)
    decide (significand ≠ 0) && (decide (308 < exponent) ||
      (decide (0 ≤ exponent) &&
        (Binary64.ofNat significand * Decimal.toBinary64 false ⟨1, exponent⟩).isInfinite))

/-- A whole number below `2 ^ 64`, written in digits alone. -/
def wholeNumber? (literal : List Char) : Option UInt64 :=
  let n := Nat.ofDigitChars 10 literal 0
  if literal.all Char.isDigit && n < 2 ^ 64 then some (.ofNat n) else none

/-- The fault of an event where another kind of value is wanted. A token that is no value in itself
is malformed. -/
def unwanted : Json.Event → Json.Fault
  | .numeral literal => if exceedsDoubles literal then .malformed else .mismatched
  | .text content => if (Utf8.decode? content).isNone then .malformed else .mismatched
  | _ => .mismatched

namespace Reading

def start : Reading := ⟨true, .empty, .before⟩

/-- After the value of a field. -/
def proceed (r : Reading) (draft : Draft) : Reading := { r with draft, position := .between }

/-- The first event of the value of a field. -/
def acceptValue (r : Reading) (field : Field) (event : Json.Event) : Except Json.Fault Reading :=
  match field, event with
  | .algorithm, .text content =>
    match text content with
    | .ok algorithm => .ok (r.proceed { r.draft with algorithm := some algorithm })
    | .error fault => .error fault
  | .sizes, .listBegin => .ok { r with position := .sizes [] }
  | .competitors, .listBegin => .ok { r with position := .competitors [] }
  | _, event => .error (unwanted event)

/-- An event between the fields of a record. -/
def acceptMember (r : Reading) (event : Json.Event) : Except Json.Fault Reading :=
  match event with
  | .name content =>
    match text content with
    | .error fault => .error fault
    | .ok name =>
      match Field.ofName? name.toList with
      | none => .ok { r with position := .skipped 0 }
      | some field =>
        if r.draft.has field then .error .mismatched
        else .ok { r with position := .value field }
  | .recordEnd =>
    if r.draft.missing?.isSome then .error .mismatched else .ok { r with position := .after }
  | _ => .ok r

/-- An event between the fields of a list. After the last field the list has to end. -/
def acceptItem (r : Reading) (event : Json.Event) : Except Json.Fault Reading :=
  match r.draft.missing?, event with
  | none, .listEnd => .ok { r with position := .after }
  | none, _ => .error .malformed
  | some _, .listEnd => .error .mismatched
  | some _, .comma => .ok r
  | some field, event => r.acceptValue field event

/-- A skipped value goes on until its brackets are closed. -/
def acceptSkipped (r : Reading) (depth : Nat) : Json.Event → Reading
  | .listBegin | .recordBegin => { r with position := .skipped (depth + 1) }
  | .listEnd | .recordEnd =>
    { r with position := if depth ≤ 1 then .between else .skipped (depth - 1) }
  | .word _ | .numeral _ | .text _ =>
    { r with position := if depth = 0 then .between else .skipped depth }
  | .name _ | .comma => r

def accept (r : Reading) (event : Json.Event) : Except Json.Fault Reading :=
  match r.position with
  | .before =>
    match event with
    | .recordBegin => .ok { r with position := .between }
    | .listBegin => .ok { r with named := false, position := .between }
    | _ => .error (unwanted event)
  | .between => if r.named then r.acceptMember event else r.acceptItem event
  | .value field => r.acceptValue field event
  | .sizes read =>
    match event with
    | .numeral literal =>
      match wholeNumber? literal with
      | some size => .ok { r with position := .sizes (size :: read) }
      | none => .error (unwanted event)
    | .comma => .ok r
    | .listEnd => .ok (r.proceed { r.draft with sizes := some read.reverse })
    | _ => .error (unwanted event)
  | .competitors read =>
    match event with
    | .text content =>
      match text content with
      | .ok label => .ok { r with position := .competitors (label :: read) }
      | .error fault => .error fault
    | .comma => .ok r
    | .listEnd => .ok (r.proceed { r.draft with competitors := some read.reverse })
    | _ => .error (unwanted event)
  | .skipped depth => .ok (r.acceptSkipped depth event)
  | .after => .ok r

/-- What is skipped is not read for its content. -/
def isStrict (r : Reading) : Bool :=
  match r.position with
  | .skipped _ => false
  | _ => true

end Reading

def consumer : Json.Consumer Reading := ⟨Reading.isStrict, Reading.accept⟩

def read (octets : List UInt8) : Except Json.Fault Request := do
  let last ← consumer.read .start octets
  match last.draft.request? with
  | some request => .ok request
  | none => .error .truncated

end TimingSweep.Request
