import TimingSweep.Backend
import TimingSweep.Number.Unsigned
import TimingSweep.Presenter
import TimingSweep.Request
import TimingSweep.Sizes

/-!
# Arguments

The command line of a single sweep: an algorithm, flags for the way of presentation, and options for
the competitors, the sizes and the two directories. `Arguments.read` reads it token by token.

An option's value stands behind an equals sign or is the next token. A value that is the next token
is judged only when another argument begins, so that an unknown argument is noticed first.
-/

namespace TimingSweep

/-- Why a command line is not accepted, or what it asks for instead of a sweep. -/
inductive ArgumentFault where
  | unknownArgument
  | conflict
  | missingValue
  | invalidValue
  | unexpectedValue
  | helpAsked
  | versionAsked
  deriving DecidableEq

structure Arguments where
  algorithm : String
  mode : Mode
  competitors : List String
  rawSizes : List UInt64
  binDir : Option String
  outputDir : Option String
  deriving DecidableEq

namespace Arguments

inductive Flag where
  | plotTime
  | plotRate
  | json
  deriving DecidableEq

/-- The options that take a value. -/
inductive Choice where
  | competitors
  | sizes
  | binDir
  | outputDir
  deriving DecidableEq

/-- What a name behind two dashes stands for. -/
inductive Argument where
  | flag (f : Flag)
  | choice (c : Choice)
  | help
  | version
  deriving DecidableEq

def Argument.ofName? (name : String) : Option Argument :=
  if name = "plot-time" then some (.flag .plotTime)
  else if name = "plot-rate" then some (.flag .plotRate)
  else if name = "json" then some (.flag .json)
  else if name = "competitors" then some (.choice .competitors)
  else if name = "sizes" then some (.choice .sizes)
  else if name = "bin-dir" then some (.choice .binDir)
  else if name = "output-dir" then some (.choice .outputDir)
  else if name = "help" then some .help
  else if name = "version" then some .version
  else none

/-- What has been read. `pending` is an option whose value has not been judged or not come yet. -/
structure Draft where
  algorithm : Option String
  flags : List Flag
  competitors : List String
  sizes : List UInt64
  binDir : Option String
  outputDir : Option String
  pending : Option (Choice × Option String)
  operandsOnly : Bool
  deriving DecidableEq

namespace Draft

def start : Draft := ⟨none, [], [], [], none, none, none, false⟩

/-- The items of a list that is written with commas. -/
def items (value : String) : List String := (value.toList.splitOn ',').map String.ofList

/-- Reads the sizes of a list. -/
def readSizes? (value : String) : Option (List UInt64) :=
  (items value).mapM fun item => (readUnsigned? (2 ^ 64) item.toList).map UInt64.ofNat

/-- Gives an option its value. Lists grow; a directory is given once and is not empty. -/
def apply (d : Draft) (choice : Choice) (value : String) : Except ArgumentFault Draft :=
  match choice with
  | .competitors => .ok { d with competitors := d.competitors ++ items value }
  | .sizes =>
    match readSizes? value with
    | some sizes => .ok { d with sizes := d.sizes ++ sizes }
    | none => .error .invalidValue
  | .binDir =>
    if d.binDir.isSome then .error .conflict
    else if value = "" then .error .missingValue
    else .ok { d with binDir := some value }
  | .outputDir =>
    if d.outputDir.isSome then .error .conflict
    else if value = "" then .error .missingValue
    else .ok { d with outputDir := some value }

/-- Judges the option that is pending, if there is one. -/
def settle (d : Draft) : Except ArgumentFault Draft :=
  match d.pending with
  | none => .ok d
  | some (_, none) => .error .missingValue
  | some (choice, some value) => apply { d with pending := none } choice value

/-- A flag is given at most once. -/
def addFlag (d : Draft) (f : Flag) : Except ArgumentFault Draft :=
  if d.flags.contains f then .error .conflict else .ok { d with flags := d.flags ++ [f] }

/-- A name behind two dashes, and the text behind an equals sign if there is one. -/
def long (d : Draft) (name : String) (value : Option String) : Except ArgumentFault Draft :=
  match Argument.ofName? name, value with
  | none, _ => .error .unknownArgument
  | some (.choice choice), none => do
    let d ← d.settle
    pure { d with pending := some (choice, none) }
  | some (.choice choice), some value => do
    let d ← d.settle
    d.apply choice value
  | some _, some _ => .error .unexpectedValue
  | some (.flag f), none => do
    let d ← d.settle
    d.addFlag f
  | some .help, none => do
    let _ ← d.settle
    throw .helpAsked
  | some .version, none => do
    let _ ← d.settle
    throw .versionAsked

/-- Letters behind one dash: only the first matters, since each ends the reading. -/
def short (d : Draft) : List Char → Except ArgumentFault Draft
  | 'h' :: _ => d.settle >>= fun _ => throw .helpAsked
  | 'V' :: _ => d.settle >>= fun _ => throw .versionAsked
  | _ => .error .unknownArgument

/-- The algorithm; there is no second operand. -/
def operand (d : Draft) (token : String) : Except ArgumentFault Draft :=
  if d.algorithm.isSome then .error .unknownArgument
  else do
    let d ← d.settle
    pure { d with algorithm := some token }

/-- A token that is no argument by its form: the value that is awaited, or the operand. -/
def word (d : Draft) (token : String) : Except ArgumentFault Draft :=
  match d.pending with
  | some (choice, none) => .ok { d with pending := some (choice, some token) }
  | _ => d.operand token

/-- Reads one token. After two dashes alone there are only operands. -/
def step (d : Draft) (token : String) : Except ArgumentFault Draft :=
  if d.operandsOnly then d.operand token
  else match token.toList with
    | ['-', '-'] => .ok { d with operandsOnly := true }
    | '-' :: '-' :: rest =>
      let name := rest.takeWhile (· ≠ '=')
      let value := String.ofList (rest.drop (name.length + 1))
      d.long (.ofList name) (if rest.contains '=' then some value else none)
    | '-' :: letter :: rest => d.short (letter :: rest)
    | _ => d.word token

def mode (flags : List Flag) : Mode :=
  if flags.contains .plotTime then .plot .time
  else if flags.contains .plotRate then .plot .rate
  else if flags.contains .json then .json
  else .text

end Draft

def defaultAlgorithm : String := "sort"

def defaultCompetitors : List String := [Backend.tbb, Backend.thrust, Backend.stl]

/-- The exponents of the sizes that are used if none are given. -/
def leastExponent : Nat := 1

def greatestExponent : Nat := 25

def program : String := "perfsweep"

/-- What is written if the version is asked for. -/
def versionText : String := program ++ " 0.1.0\n"

/-- The end of the tokens. The flags exclude each other. -/
def ofDraft (d : Draft) : Except ArgumentFault Arguments := do
  let d ← d.settle
  if 1 < d.flags.length then throw .conflict
  else pure {
    algorithm := d.algorithm.getD defaultAlgorithm
    mode := Draft.mode d.flags
    competitors := if d.competitors.isEmpty then defaultCompetitors else d.competitors
    rawSizes := d.sizes
    binDir := d.binDir
    outputDir := d.outputDir }

def read (tokens : List String) : Except ArgumentFault Arguments :=
  tokens.foldlM Draft.step .start >>= ofDraft

/-- The sizes of the sweep: those given, in ascending order and each once, or the default ones. -/
def sizes (a : Arguments) : List UInt64 :=
  if a.rawSizes.isEmpty then Sizes.powersOfTwo leastExponent greatestExponent
  else Sizes.ascending a.rawSizes

/-- The request that is run. -/
def request (a : Arguments) : Request := ⟨a.algorithm, a.sizes, a.competitors⟩

end Arguments

end TimingSweep
