import TimingSweep.Failure
import TimingSweep.Number.Power
import TimingSweep.Number.Unsigned
import TimingSweep.Settings.Assignments

/-!
# Settings

The settings come from the environment and, for variables that are not set there, from a file of
assignments. What neither sets has a default. Loading them fails if a dimension is unusable, and
crashes if the file assigns what no variable can be set to.

* `ofValues_of_width`: an unusable width is reported whatever the height is.
-/

namespace TimingSweep

structure Settings where
  binDir : String
  plotsDir : String
  width : UInt32
  height : UInt32
  logFilter : String
  deriving DecidableEq

/-- Variables and the octets of their values. -/
abbrev Environment := List (String × List UInt8)

/-- The value of a variable, if it is text. -/
def Environment.text (e : Environment) (name : String) : Option String := do
  let octets ← e.lookup name
  let chars ← Utf8.decode? octets
  pure (.ofList chars)

namespace Settings

def defaultBinDir : String := "./perf"

def defaultPlotsDir : String := "perf_plots"

def defaultWidth : UInt32 := 1000

def defaultHeight : UInt32 := 600

def defaultLogFilter : String := "perfsweep=info"

def binDirVariable : String := "PERF_BIN_DIR"

def plotsDirVariable : String := "PERF_PLOTS_DIR"

def widthVariable : String := "PERF_PLOT_WIDTH"

def heightVariable : String := "PERF_PLOT_HEIGHT"

def logFilterVariable : String := "RUST_LOG"

/-- A positive number of 32 bits, with blanks around it. -/
def readDimension? (text : String) : Option UInt32 :=
  match readUnsigned? (2 ^ 32) (trim text.toList) with
  | some (n + 1) => some (.ofNat (n + 1))
  | _ => none

/-- The value of a dimension, or its default if the variable is not set. -/
def dimension (value : String → Option String) (name : String) (standard : UInt32) :
    Except SettingFault UInt32 :=
  match value name with
  | none => .ok standard
  | some text =>
    match readDimension? text with
    | some n => .ok n
    | none => .error ⟨name⟩

/-- The settings for the values of the variables. The width is judged first. -/
def ofValues (value : String → Option String) : Except SettingFault Settings := do
  let width ← dimension value widthVariable defaultWidth
  let height ← dimension value heightVariable defaultHeight
  pure {
    binDir := (value binDirVariable).getD defaultBinDir
    plotsDir := (value plotsDirVariable).getD defaultPlotsDir
    width
    height
    logFilter := (value logFilterVariable).getD defaultLogFilter }

/-- Why settings are not loaded: a setting is unusable, or a variable could not be set and the
program crashed. -/
inductive LoadFault where
  | unusable (fault : SettingFault)
  | crash (name : String)
  deriving DecidableEq

/-- The settings for an environment and the contents of a file of assignments, if there is one. -/
def load (environment : Environment) (file : Option (List UInt8)) : Except LoadFault Settings := do
  let assigned ← (Assignments.read environment.text (file.getD [])).mapError .crash
  (ofValues (Assignments.valueOf environment.text assigned)).mapError .unusable

theorem ofValues_of_width {value : String → Option String} {fault : SettingFault}
    (h : dimension value widthVariable defaultWidth = .error fault) :
    ofValues value = .error fault := by
  simp [ofValues, h, bind, Except.bind]

end Settings

end TimingSweep
