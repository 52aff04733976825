import Std.Time.DateTime.Timestamp
import TimingSweep.Command.Batch
import TimingSweep.Command.Single
import TimingSweep.Drawing.Markup
import TimingSweep.Instant

/-!
# Command line

The first argument names the command: `perfsweep`, with the arguments of a single sweep behind it,
or `perfdoc`. What the executables of a host do is a parameter of both, and no executable is started
here. They are played back: the file at the path of an executable holds the output recorded of it,
which it writes at every size.
-/

namespace TimingSweep.CommandLine

def command? : String → Option Command
  | "perfsweep" => some SingleSweep.command
  | "perfdoc" => some BatchReport.command
  | _ => none

/-- The variables that settings come from. -/
def names : List String :=
  [Settings.binDirVariable, Settings.plotsDirVariable, Settings.widthVariable,
    Settings.heightVariable, Settings.logFilterVariable]

/-- A program that writes the same whatever it is started with. -/
def recorded (output : List UInt8) : Program := ⟨fun _ => .ok ⟨output, .ofExitCode 0⟩⟩

/-- A workspace with one more file. -/
def addFile (w : Workspace) (path : String) (p : Program) : Workspace :=
  let folder := (path.toList.reverse.dropWhile (· ≠ '/')).reverse
  let (_, w) := w.makeDirectories (.ofList folder)
  match w.tree.createFile w.home path (.program p) with
  | .ok tree => { w with tree }
  | .error _ => w

/-- The name of the file of assignments. -/
def settingsFile : String := ".env"

/-- What is printed of the arguments of a single sweep. -/
def help : String := String.intercalate "\n" [
  "Time one algorithm across input sizes against competing backends",
  "",
  "Usage: perfsweep [OPTIONS] [ALGORITHM]",
  "",
  "Arguments:",
  "  [ALGORITHM]  Algorithm to benchmark [default: sort]",
  "",
  "Options:",
  "      --plot-time                  Plot elapsed time per size",
  "      --plot-rate                  Plot processing rate per size",
  "      --json                       Print the report as JSON",
  "      --competitors <COMPETITORS>  Competing backends to try (comma-separated) " ++
    "[default: tbb thrust stl]",
  "      --sizes <SIZES>              Input sizes (comma-separated); defaults to every power of " ++
    "two from 2 to 2^25",
  "      --bin-dir <BIN_DIR>          Directory holding the benchmark executables " ++
    "[default: PERF_BIN_DIR]",
  "      --output-dir <OUTPUT_DIR>    Directory receiving plots [default: PERF_PLOTS_DIR]",
  "  -h, --help                       Print help",
  "  -V, --version                    Print version",
  ""]

/-- The drawings of a workspace and the places of their files. -/
def drawings (w : Workspace) : List (Location × Drawing) :=
  w.tree.files.filterMap fun (place, contents) =>
    match contents with
    | .drawing d => some (place, d)
    | .program _ => none

def pathOf (place : Location) : String := "/" ++ String.intercalate "/" place

def readOctets? (path : String) : IO (Option (List UInt8)) := do
  try
    let contents ← IO.FS.readBinFile path
    return some contents.toList
  catch _ => return none

def readEnvironment : IO Environment :=
  names.filterMapM fun name => do
    return (← IO.getEnv name).map fun value => (name, Utf8.encode value.toList)

/-- The file of assignments in the first of some folders that has one, each of them in the next. A
folder of that name is passed over, and behind a file that cannot be read no other is looked for. -/
def readAssignments : List String → IO (Option (List UInt8))
  | [] => readOctets? (pathOf [settingsFile])
  | folder :: around => do
    try
      let contents ← IO.FS.readBinFile (pathOf (folder :: around).reverse ++ "/" ++ settingsFile)
      return some contents.toList
    catch
      | .noFileOrDirectory .. | .inappropriateType .. => readAssignments around
      | _ => return none

/-- The folder in which the program is started, with the file of assignments if there is one. -/
def readHome : IO Workspace := do
  let path := (← IO.getEnv "PWD").getD "/"
  let home := (Route.ofPath path).essential
  let bare : Workspace := ⟨(Tree.empty.makeDirectories [] path).2, home⟩
  return (← readOctets? settingsFile).elim bare fun _ => addFile bare settingsFile .unrunnable

def writeDrawing (place : Location) (d : Drawing) : IO Unit := do
  IO.FS.createDirAll (pathOf place.dropLast)
  IO.FS.writeFile (pathOf place) d.markup

def now : IO Instant := do
  return ⟨(← Std.Time.Timestamp.now).toNanosecondsSinceUnixEpoch.toInt.toNat⟩

/-- Runs a command with the recorded outputs of the executables that it measures. -/
def perform (c : Command) (arguments : List String) : IO UInt32 := do
  let home ← readHome
  let invocation (w : Workspace) : IO Invocation := do
    return ⟨arguments, ← readEnvironment, ← readAssignments home.home.reverse,
      ⟨w, fun _ => .error .noEntry⟩, (← now).text, Utf8.encode help.toList, .minimumFirst⟩
  let executables := c.executables (← invocation home)
  let workspace ← executables.foldlM (fun w path => do
    return (← readOctets? path).elim w fun output => addFile w path (recorded output)) home
  let outcome := c.run (← invocation workspace)
  (drawings outcome.workspace).forM fun (place, d) => writeDrawing place d
  let output ← IO.getStdout
  output.write ⟨outcome.output.toArray⟩
  output.flush
  outcome.error.forM fun error => IO.eprintln error
  return .ofNat outcome.exitCode

def usage : String := "the first argument is perfsweep or perfdoc"

/-- Runs the command that the first argument names, with the arguments behind it. -/
def start (arguments : List String) : IO UInt32 :=
  match arguments.head?.bind command? with
  | some command => perform command arguments.tail
  | none => do
    IO.eprintln usage
    return .ofNat SingleSweep.usageCode

end TimingSweep.CommandLine

def main (arguments : List String) : IO UInt32 := TimingSweep.CommandLine.start arguments
