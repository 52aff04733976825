import TimingSweep.Number.Decimal

/-!
# JSON values

`Value` holds the values that are written here, with whole numbers apart from doubles and members in
order. `Value.write` writes a value in a `Layout`: `compact` puts nothing between the tokens and
`indented` a line for each item, two blanks deeper than its enclosure.

* `escape_of_plain`: a character from the space on stands for itself unless it is a quote or a
  backslash.
-/

namespace TimingSweep.Json

inductive Value where
  | whole (n : Nat)
  | number (x : Binary64)
  | text (s : String)
  | list (items : List Value)
  | record (members : List (String × Value))

/-- What is written between the tokens: before an item or a closing bracket at a depth, and after
the name of a member. -/
structure Layout where
  line : Nat → List Char
  afterName : List Char

def compact : Layout := ⟨fun _ => [], []⟩

def indented : Layout := ⟨fun depth => '\n' :: List.replicate (2 * depth) ' ', [' ']⟩

/-- A quote and a backslash are marked with a backslash; of the characters below the space five have
a letter and the others are given by number. -/
def escape (c : Char) : List Char :=
  if c = '"' || c = '\\' then ['\\', c]
  else if ' ' ≤ c then [c]
  else if c = '\x08' then ['\\', 'b']
  else if c = '\t' then ['\\', 't']
  else if c = '\n' then ['\\', 'n']
  else if c = '\x0c' then ['\\', 'f']
  else if c = '\r' then ['\\', 'r']
  else ['\\', 'u', '0', '0', Nat.digitChar (c.toNat / 16), Nat.digitChar (c.toNat % 16)]

theorem escape_of_plain {c : Char} (quote : c ≠ '"') (backslash : c ≠ '\\') (plain : ' ' ≤ c) :
    escape c = [c] := by
  simp [escape, quote, backslash, plain]

def quote (s : String) : List Char := '"' :: (s.toList.flatMap escape ++ ['"'])

/-- Numbers are written positionally while the exponent of the first digit lies in this range. -/
def numeralLayout : Decimal.Layout := ⟨-5, 15, ['+']⟩

/-- The shortest numeral that reads back; what is not finite has none and is `null`. -/
def numeral (x : Binary64) : List Char :=
  if !x.isFinite then "null".toList
  else if x.isZero then x.sign ++ "0.0".toList
  else x.sign ++ Decimal.write numeralLayout (Binary64.shortest x.rank)

namespace Value

mutual

/-- A value in a layout, inside `depth` enclosures. -/
def write (layout : Layout) (depth : Nat) : Value → List Char
  | .whole n => Nat.toDigits 10 n
  | .number x => numeral x
  | .text s => quote s
  | .list [] => ['[', ']']
  | .list (item :: rest) =>
    '[' :: (layout.line (depth + 1) ++ write layout (depth + 1) item ++
      writeItems layout (depth + 1) rest ++ layout.line depth ++ [']'])
  | .record [] => ['{', '}']
  | .record ((name, value) :: rest) =>
    '{' :: (layout.line (depth + 1) ++ quote name ++ ':' :: layout.afterName ++
      write layout (depth + 1) value ++
      writeMembers layout (depth + 1) rest ++ layout.line depth ++ ['}'])

/-- The items after the first, each behind a comma. -/
def writeItems (layout : Layout) (depth : Nat) : List Value → List Char
  | [] => []
  | item :: rest =>
    ',' :: (layout.line depth ++ write layout depth item ++ writeItems layout depth rest)

/-- The members after the first, each behind a comma. -/
def writeMembers (layout : Layout) (depth : Nat) : List (String × Value) → List Char
  | [] => []
  | (name, value) :: rest =>
    ',' :: (layout.line depth ++ quote name ++ ':' :: layout.afterName ++
      write layout depth value ++ writeMembers layout depth rest)

end

/-- A value without blanks between its tokens. -/
def compactText (v : Value) : String := .ofList (v.write compact 0)

/-- A value with a line for each item. -/
def indentedText (v : Value) : String := .ofList (v.write indented 0)

end Value

end TimingSweep.Json
