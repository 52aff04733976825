import TimingSweep.Files.Errno

/-!
# Failures of input and output

What reading, writing and creating files reports when it fails.
-/

namespace TimingSweep

/-- The system refuses with a number; a sink takes no more octets; or a name holds a null character,
which no file name can. -/
inductive IoFailure where
  | system (number : Errno)
  | shortWrite
  | nullInName
  deriving DecidableEq

namespace IoFailure

def message : IoFailure → String
  | .system number => number.message
  | .shortWrite => "failed to write whole buffer"
  | .nullInName => "file name contained an unexpected NUL byte"

end IoFailure

end TimingSweep
