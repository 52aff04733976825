/-!
# JSON faults

What can go wrong with a JSON text. The first fault in the order of the text decides.
-/

namespace TimingSweep.Json

/-- The text is no JSON; it is JSON of another shape than what is read; it ends too early; or it
could not be written. -/
inductive Fault where
  | malformed
  | mismatched
  | truncated
  | unwritten
  deriving DecidableEq

end TimingSweep.Json
