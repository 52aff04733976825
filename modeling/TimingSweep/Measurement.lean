import TimingSweep.Executable
import TimingSweep.Sweep
import TimingSweep.Text.Utf8
import TimingSweep.TimeLine
import TimingSweep.Workspace

/-!
# Measurements

A measurement starts the executable of a call with the size as its only argument and reads the time
from what it writes. `Measurement.attempt` keeps the reason of a failure; in a sweep a failure
counts as no measurement.

* `time_of_attempt`, `time_of_fault`: an attempt that succeeds gives its time, any other none;
* `attempt_of_missing`, `attempt_of_unstarted`, `attempt_of_started`: how far an attempt comes.
-/

namespace TimingSweep

/-- Why a measurement gives no time: there is no executable file, it cannot be started, it does not
end successfully, or its output has no time. -/
inductive MeasureFault where
  | missing (path : String)
  | unstarted (path : String) (number : Errno)
  | unsuccessful (path : String) (status : WaitStatus)
  | unreadable (fault : TimeFault)
  deriving DecidableEq

def MeasureFault.message : MeasureFault → String
  | .missing path => "benchmark executable not found: " ++ path
  | .unstarted path number => "failed to spawn " ++ path ++ ": " ++ number.message
  | .unsuccessful path status => path ++ " exited with " ++ status.describe
  | .unreadable fault => fault.message

namespace Measurement

/-- The time that a finished run reports. -/
def timeOfRun (path : String) (run : Run) : Except MeasureFault Binary64 :=
  if run.status.isSuccess then (TimeLine.read (Utf8.decode run.output)).mapError .unreadable
  else .error (.unsuccessful path run.status)

/-- Starts the program for a path with a size. -/
def start (host : Host) (path : String) (size : UInt64) : Except Errno Run := do
  let program ← host.program path
  program.start [toString size.toNat]

def attempt (host : Host) (directory : String) (call : Call) : Except MeasureFault Binary64 :=
  let path := Executable.path directory call.algorithm call.backend
  match host.workspace.file? path with
  | none => .error (.missing path)
  | some _ =>
    match start host path call.size with
    | .error number => .error (.unstarted path number)
    | .ok run => timeOfRun path run

/-- The time of a call, or the stand-in if there is none. -/
def time (host : Host) (directory : String) (call : Call) : Binary64 :=
  match attempt host directory call with
  | .ok elapsed => elapsed
  | .error _ => noMeasurement

/-- Answers every call by a measurement of its own. -/
def source (host : Host) (directory : String) : TimingSource := fun _ call =>
  time host directory call

variable {host : Host} {directory : String} {call : Call}

theorem time_of_attempt {elapsed : Binary64} (h : attempt host directory call = .ok elapsed) :
    time host directory call = elapsed := by
  unfold time
  rw [h]

theorem time_of_fault {fault : MeasureFault} (h : attempt host directory call = .error fault) :
    time host directory call = noMeasurement := by
  unfold time
  rw [h]

theorem attempt_of_missing
    (h : host.workspace.file? (Executable.path directory call.algorithm call.backend) = none) :
    attempt host directory call =
      .error (.missing (Executable.path directory call.algorithm call.backend)) := by
  unfold attempt
  simp only [h]

theorem attempt_of_unstarted {contents : Contents} {number : Errno}
    (file : host.workspace.file? (Executable.path directory call.algorithm call.backend) =
      some contents)
    (h : start host (Executable.path directory call.algorithm call.backend) call.size =
      .error number) :
    attempt host directory call =
      .error (.unstarted (Executable.path directory call.algorithm call.backend) number) := by
  unfold attempt
  simp only [file, h]

theorem attempt_of_started {contents : Contents} {run : Run}
    (file : host.workspace.file? (Executable.path directory call.algorithm call.backend) =
      some contents)
    (h : start host (Executable.path directory call.algorithm call.backend) call.size = .ok run) :
    attempt host directory call =
      timeOfRun (Executable.path directory call.algorithm call.backend) run := by
  unfold attempt
  simp only [file, h]

end Measurement

end TimingSweep
