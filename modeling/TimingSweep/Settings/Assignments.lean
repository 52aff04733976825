import TimingSweep.Text.Alphanumeric
import TimingSweep.Text.Blank
import TimingSweep.Text.Utf8

/-!
# Assignments

A file of assignments gives values to variables, one `NAME=value` on a line. Values may be quoted,
over several lines too, and may mention other variables behind a dollar sign. Reading stops at the
first line that is no assignment, and keeps what came before it. Only a variable without a text is
set, and one that would be set to a text with a null character in it cannot be: the program
crashes.
-/

namespace TimingSweep.Assignments

def apostrophe : Char := Char.ofNat 39

/-- Cuts octets behind each line feed. -/
def physicalLines : List UInt8 → List (List UInt8)
  | [] => []
  | octet :: rest =>
    if octet = 10 then [octet] :: physicalLines rest
    else match physicalLines rest with
      | [] => [[octet]]
      | line :: more => (octet :: line) :: more

/-- How far a line has been read: outside of quotes and escapes, behind a blank, behind a backslash,
or in quotes of either kind, there perhaps behind a backslash. -/
inductive LineState where
  | complete
  | blank
  | escape
  | weak
  | weakEscape
  | strong
  | strongEscape
  deriving DecidableEq

namespace LineState

/-- Outside of quotes a character may open some. -/
def opened (c : Char) : LineState :=
  if c = '\\' then .escape else if c = '"' then .weak else if c = apostrophe then .strong
  else .complete

/-- The state behind a character, unless a comment begins with it. -/
def next? : LineState → Char → Option LineState
  | .complete, c => some (if isBlank c && c ≠ '\n' && c ≠ '\r' then .blank else opened c)
  | .blank, c => if c = '#' then none else some (opened c)
  | .escape, _ => some .complete
  | .weak, c => some (if c = '\\' then .weakEscape else if c = '"' then .complete else .weak)
  | .weakEscape, _ => some .weak
  | .strong, c =>
    some (if c = '\\' then .strongEscape else if c = apostrophe then .complete else .strong)
  | .strongEscape, _ => some .strong

end LineState

/-- How a physical line ends: in a state, or with a comment behind what is kept. -/
inductive LineEnd where
  | at (state : LineState)
  | comment (kept : List Char)

def scanLine (state : LineState) : List Char → LineEnd
  | [] => .at state
  | c :: rest =>
    match state.next? c with
    | none => .comment []
    | some later =>
      match scanLine later rest with
      | .at last => .at last
      | .comment kept => .comment (c :: kept)

/-- Drops a line feed and a carriage return before it. -/
def dropLineFeed (line : List Char) : List Char :=
  match line.reverse with
  | '\n' :: '\r' :: rest => rest.reverse
  | '\n' :: rest => rest.reverse
  | _ => line

/-- Joins physical lines while quotes or escapes are open; what has been joined so far is given
backwards. A comment may take up a line that begins with it. A line that is no text, or that is open
at the end, is `none` and the last. -/
def logicalLines (state : LineState) (begun : List Char) :
    List (List UInt8) → List (Option (List Char))
  | [] => if state = .complete then [] else [none]
  | octets :: rest =>
    match Utf8.decode? octets with
    | none => [none]
    | some line =>
      if begun.isEmpty && (trimStart line).head? = some '#' then
        some [] :: logicalLines .complete [] rest
      else match scanLine state line with
        | .comment kept => some (begun.reverse ++ kept) :: logicalLines .complete [] rest
        | .at .complete =>
          some (begun.reverse ++ dropLineFeed line) :: logicalLines .complete [] rest
        | .at unfinished => logicalLines unfinished (line.reverse ++ begun) rest

/-- Where in a value a character stands: in the value itself, behind a backslash, in strong quotes,
in the name of a variable, bare or in braces, behind the blank that ends the value, or in the
comment behind that. Names are kept backwards. -/
inductive ValuePlace where
  | plain
  | escape
  | strong
  | name (letters : List Char)
  | braced (letters : List Char)
  | ended
  | comment
  deriving DecidableEq

/-- What has been read of a value, backwards, and whether weak quotes are open. -/
structure ValueState where
  place : ValuePlace
  weak : Bool
  output : List Char
  deriving DecidableEq

namespace ValueState

def start : ValueState := ⟨.plain, false, []⟩

def push (s : ValueState) (c : Char) : ValueState :=
  { s with place := .plain, output := c :: s.output }

/-- Puts the value of a variable in. -/
def substitute (lookup : String → String) (s : ValueState) (letters : List Char) : ValueState :=
  { s with
    place := .plain
    output := (lookup (.ofList letters.reverse)).toList.reverse ++ s.output }

/-- The five characters that a backslash lets stand for themselves. -/
def escapable (c : Char) : Bool :=
  c = '\\' || c = apostrophe || c = '"' || c = '$' || c = ' '

/-- A character of the value outside of escapes, strong quotes and names. -/
def stepPlain (s : ValueState) (c : Char) : ValueState :=
  if c = '$' then { s with place := .name [] }
  else if c = '\\' then { s with place := .escape }
  else if c = '"' then { s with weak := !s.weak }
  else if s.weak then s.push c
  else if c = apostrophe then { s with place := .strong }
  else if c = ' ' || c = '\t' then { s with place := .ended }
  else s.push c

/-- Reads a character; only some can follow a backslash or the end of the value. A bare name goes on
while characters are alphanumeric, and the character behind it stands for itself, unless it is
another dollar sign. -/
def step (lookup : String → String) (s : ValueState) (c : Char) : Option ValueState :=
  match s.place with
  | .plain => some (s.stepPlain c)
  | .escape =>
    if escapable c then some (s.push c) else if c = 'n' then some (s.push '\n') else none
  | .strong =>
    if c = apostrophe then some { s with place := .plain }
    else some { s with output := c :: s.output }
  | .name letters =>
    if isAlphanumeric c then some { s with place := .name (c :: letters) }
    else if c = '\x7b' && letters.isEmpty then some { s with place := .braced [] }
    else
      let done := s.substitute lookup letters
      some (if c = '$' then { done with place := .name [] } else done.push c)
  | .braced letters =>
    if c = '\x7d' then some (s.substitute lookup letters)
    else some { s with place := .braced (c :: letters) }
  | .ended =>
    if c = ' ' || c = '\t' then some s
    else if c = '#' then some { s with place := .comment }
    else none
  | .comment => some s

/-- The value at the end of the line. Quotes and braces have to be closed. -/
def finish (lookup : String → String) (s : ValueState) : Option (List Char) :=
  match s.place with
  | .strong | .braced _ => none
  | .name letters => if s.weak then none else some (s.substitute lookup letters).output.reverse
  | _ => if s.weak then none else some s.output.reverse

end ValueState

def readValue (lookup : String → String) (text : List Char) : Option (List Char) :=
  text.foldlM (ValueState.step lookup) .start >>= ValueState.finish lookup

/-- What a line comes to. -/
inductive Line where
  | nothing
  | assignment (name value : String)
  | invalid
  deriving DecidableEq

/-- The name at the beginning of a line, and what follows it. -/
def readName (line : List Char) : Option (List Char × List Char) :=
  match line with
  | c :: _ =>
    if c.isAlpha || c = '_' then
      let inName := fun c : Char => c.isAlphanum || c = '_' || c = '.'
      some (line.takeWhile inName, trimStart (line.dropWhile inName))
    else none
  | [] => none

/-- The value behind the equals sign. -/
def readAssigned (lookup : String → String) (name rest : List Char) : Line :=
  match rest with
  | '=' :: value =>
    let value := trimStart value
    if value.isEmpty || value.head? = some '#' then .assignment (.ofList name) ""
    else match readValue lookup value with
      | some value => .assignment (.ofList name) (.ofList value)
      | none => .invalid
  | _ => .invalid

/-- The word `export` may stand before a name, or be one. -/
def readLine (lookup : String → String) (line : List Char) : Line :=
  let line := trim line
  if line.isEmpty || line.head? = some '#' then .nothing
  else match readName line with
    | none => .invalid
    | some (name, rest) =>
      if name = "export".toList && rest.head? ≠ some '=' then
        match readName rest with
        | none => .invalid
        | some (name, rest) => readAssigned lookup name rest
      else readAssigned lookup name rest

/-- The value of a variable: that of the environment, else the first one assigned, else nothing. -/
def valueOf (environment : String → Option String) (assigned : List (String × String))
    (name : String) : Option String :=
  (environment name).or (assigned.lookup name)

/-- What is found under a name as the name of an entry `NAME=value`. A name with an equals sign in
it is found where the value of the variable before the sign begins with the rest and another sign;
it yields what is behind that. -/
def search (value : String → Option String) (name : String) : Option String :=
  match name.toList.dropWhile (· ≠ '=') with
  | [] => value name
  | _ :: rest => do
    let text ← value (.ofList (name.toList.takeWhile (· ≠ '=')))
    let begun := rest ++ ['=']
    if begun.isPrefixOf text.toList then some (.ofList (text.toList.drop begun.length)) else none

/-- Whether a text can stand in an environment, where a null character ends it. -/
def fits (text : String) : Bool := !text.toList.contains '\x00'

/-- The assignments of lines behind those `assigned` before, or the name of the variable that could
not be set. -/
def readLines (environment : String → Option String) (assigned : List (String × String)) :
    List (Option (List Char)) → Except String (List (String × String))
  | [] => .ok assigned
  | none :: _ => .ok assigned
  | some line :: rest =>
    let value := valueOf environment assigned
    match readLine (fun name => (search value name).getD "") line with
    | .nothing => readLines environment assigned rest
    | .assignment name text =>
      if (value name).isSome || fits text then
        readLines environment (assigned ++ [(name, text)]) rest
      else .error name
    | .invalid => .ok assigned

/-- Drops a byte order mark. -/
def dropMark : List UInt8 → List UInt8
  | 0xEF :: 0xBB :: 0xBF :: rest => rest
  | octets => octets

/-- The assignments of a file, in order, up to the first invalid line. -/
def read (environment : String → Option String) (octets : List UInt8) :
    Except String (List (String × String)) :=
  readLines environment [] (logicalLines .complete [] (physicalLines (dropMark octets)))

end TimingSweep.Assignments
