import TimingSweep.Files.Errno
import TimingSweep.Process.WaitStatus

/-!
# Programs

A program is started with arguments. It either cannot be started or runs to its end, having written
octets to its standard output.
-/

namespace TimingSweep

/-- What a program wrote and how it ended. -/
structure Run where
  output : List UInt8
  status : WaitStatus

/-- What starting a program with arguments comes to. -/
structure Program where
  start : List String → Except Errno Run

/-- A file that may not be executed. -/
def Program.unrunnable : Program := ⟨fun _ => .error .permissionDenied⟩

end TimingSweep
