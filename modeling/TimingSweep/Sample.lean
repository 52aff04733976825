import TimingSweep.Json.Value

/-!
# Samples

A `Sample` is the time measured at one size, in milliseconds. A time of zero stands for a
measurement that was not obtained, so a sample is valid only if its time is positive and finite. A
`Quantity` is what a plot shows of a sample.
-/

namespace TimingSweep

/-- The time recorded where none was measured. -/
def noMeasurement : Binary64 := .zero

structure Sample where
  size : UInt64
  elapsed : Binary64
  deriving DecidableEq

namespace Sample

def isValid (s : Sample) : Bool := s.elapsed.isFinite && Binary64.lt noMeasurement s.elapsed

def toJson (s : Sample) : Json.Value :=
  .record [("size", .whole s.size.toNat), ("elapsed_ms", .number s.elapsed)]

end Sample

/-- What is plotted over the size: the time, or the values processed in a second. -/
inductive Quantity where
  | time
  | rate
  deriving DecidableEq

namespace Quantity

def name : Quantity → String
  | .time => "time"
  | .rate => "rate"

def axisLabel : Quantity → String
  | .time => "Time (ms)"
  | .rate => "Rate (values/s)"

/-- The double nearest to a thousandth: seconds in a millisecond. -/
def thousandth : Binary64 := .ofRatio false 1 1000

/-- The rate is the size over the time in seconds, each step rounded. -/
def of : Quantity → Sample → Binary64
  | .time, s => s.elapsed
  | .rate, s => Binary64.ofNat s.size.toNat / (s.elapsed * thousandth)

end Quantity

end TimingSweep
