import TimingSweep.Measurement
import TimingSweep.Presenter
import TimingSweep.Settings

/-!
# Commands

What a command is started with and what it comes to. Both commands measure with programs found on
their host and draw with the built-in renderer.
-/

namespace TimingSweep

/-- What a command is started with. `assignments` is the file of settings, if there is one in the
home folder or in one of the folders around it, the nearest first. `now` is the time that reports
carry. `help` is what the argument library prints when it is asked for help, and `order` the order
in which parameters come out of its tables. -/
structure Invocation where
  arguments : List String
  environment : Environment
  assignments : Option (List UInt8)
  host : Host
  now : String
  help : List UInt8
  order : ParameterOrder

/-- What a command comes to: its exit code, what it wrote to standard output, its error message, the
files after it, and the measurements it made. -/
structure Outcome where
  exitCode : Nat
  output : List UInt8
  error : Option String
  workspace : Workspace
  calls : List Call

namespace Outcome

/-- Nothing went wrong. -/
def finish (output : List UInt8) (workspace : Workspace) (calls : List Call) : Outcome :=
  ⟨0, output, none, workspace, calls⟩

/-- A failure ends the command with code one. -/
def stop (message : String) (output : List UInt8) (workspace : Workspace) (calls : List Call) :
    Outcome :=
  ⟨1, output, some ("Error: " ++ message), workspace, calls⟩

/-- A failure with what is beneath it. -/
def account (failure : Failure) : String :=
  match failure.cause? with
  | none => failure.message
  | some cause => failure.message ++ "\n\nCaused by:\n    " ++ cause

/-- The exit code of a program that crashes, where a crash unwinds it. Where it is built to abort
instead, it is ended by a signal, and shells tell 134. -/
def crashCode : Nat := 101

/-- The program crashes before it has done anything. What the language reports of that is not a
message of the command. -/
def crash (workspace : Workspace) : Outcome := ⟨crashCode, [], none, workspace, []⟩

/-- What comes of settings that are not loaded. -/
def unloaded (fault : Settings.LoadFault) (workspace : Workspace) : Outcome :=
  match fault with
  | .unusable fault => .stop fault.message [] workspace []
  | .crash _ => .crash workspace

end Outcome

/-- A command: what it comes to, and the directory of its executables unless it is refused. -/
structure Command where
  run : Invocation → Outcome
  directory? : Invocation → Option String

/-- The paths of the executables that a command measures. -/
def Command.executables (c : Command) (i : Invocation) : List String :=
  match c.directory? i with
  | none => []
  | some directory =>
    ((c.run i).calls.map fun call =>
      Executable.path directory call.algorithm call.backend).eraseDups

/-- The presenter of a command, which draws in the size of the settings. -/
def Settings.presenter (s : Settings) (outputDir : String) (displayLabels : Bool) : Presenter :=
  ⟨some (.svg s.width s.height), outputDir, displayLabels⟩

end TimingSweep
