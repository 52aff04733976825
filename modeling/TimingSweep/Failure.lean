import TimingSweep.Files.IoFailure
import TimingSweep.Json.Fault

/-!
# Failures

What can stop a sweep or its presentation. `Failure.code` names the kind and `Failure.message` says
what went wrong.
-/

namespace TimingSweep

/-- A variable whose value cannot be used. -/
structure SettingFault where
  variableName : String
  deriving DecidableEq

def SettingFault.message (fault : SettingFault) : String :=
  "Invalid value for environment variable: " ++ fault.variableName

/-- A request is refused, a setting is unusable, a plot cannot be drawn, a file operation fails, or
a JSON text cannot be read or written. -/
inductive Failure where
  | refused (reason : String)
  | setting (fault : SettingFault)
  | plot (reason : String)
  | files (failure : IoFailure)
  | json (fault : Json.Fault)
  deriving DecidableEq

namespace Failure

def code : Failure → String
  | .refused _ => "VALIDATION_ERROR"
  | .setting _ => "CONFIGURATION_ERROR"
  | .plot _ => "PLOT_ERROR"
  | .files _ => "IO_ERROR"
  | .json _ => "SERIALIZATION_ERROR"

def message : Failure → String
  | .refused reason => "Validation error: " ++ reason
  | .setting fault => "Configuration error: " ++ fault.message
  | .plot reason => "Plot error: " ++ reason
  | .files failure => "I/O error: " ++ failure.message
  | .json .unwritten => "Serialization error: " ++ IoFailure.shortWrite.message
  | .json .malformed => "Serialization error: malformed text"
  | .json .mismatched => "Serialization error: unexpected value"
  | .json .truncated => "Serialization error: unexpected end of text"

/-- The failure beneath this one, as text, if there is one. -/
def cause? : Failure → Option String
  | .refused _ | .plot _ => none
  | .setting fault => some fault.message
  | .files failure => some failure.message
  | .json .unwritten => some IoFailure.shortWrite.message
  | .json _ => none

end Failure

end TimingSweep
