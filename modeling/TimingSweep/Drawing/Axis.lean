import TimingSweep.Number.Elementary

/-!
# Axes

An `Axis` reaches beyond the coordinates by a constant factor. Its `Span` gives each coordinate a
place between two pixels by logarithms. An axis with an end below zero is mirrored: there the
opposite numbers count, so that coordinates which are all below zero have logarithms too.
-/

namespace TimingSweep

/-- The range of a logarithmic axis. -/
structure Axis where
  low : Binary64
  high : Binary64
  deriving DecidableEq

namespace Axis

/-- The factor by which an axis reaches beyond the points at either end. -/
def padding : Binary64 := .ofRatio false 3 2

/-- The axis for coordinates from `least` to `greatest`. -/
def around (least greatest : Binary64) : Axis := ⟨least / padding, greatest * padding⟩

/-- The axis where there are no coordinates. -/
def decade : Axis := ⟨.ofNat 1, .ofNat 10⟩

def mirrored (a : Axis) : Bool := a.low.place < 0 || a.high.place < 0

/-- The number that counts for a coordinate. -/
def reflect (mirrored : Bool) (v : Binary64) : Binary64 := if mirrored then -v else v

end Axis

/-- An axis by the logarithms of its ends. -/
structure Span where
  mirrored : Bool
  low : Binary64
  high : Binary64
  deriving DecidableEq

def Axis.span (a : Axis) : Span :=
  ⟨a.mirrored, (reflect a.mirrored a.low).ln, (reflect a.mirrored a.high).ln⟩

namespace Span

/-- Whether the ends have one logarithm. -/
def isFlat (s : Span) : Bool := Binary64.le s.low s.high && Binary64.le s.high s.low

/-- Where a coordinate lies between the ends: zero at the low end, one at the high end. -/
def share (s : Span) (v : Binary64) : Binary64 :=
  ((Axis.reflect s.mirrored v).ln - s.low) / (s.high - s.low)

/-- What is added to a distance before it is rounded down. -/
def thousandth : Binary64 := .ofRatio false 1 1000

/-- The part of a distance in whole pixels. -/
def across (distance : Nat) (share : Binary64) : Int := (.ofNat distance * share + thousandth).floor

/-- The pixel of a coordinate on an axis from `start` to `stop`. On a flat axis it is half the
distance between the two. -/
def place (s : Span) (start stop : Int) (v : Binary64) : Int :=
  if s.isFlat then (stop - start).tdiv 2
  else if start ≤ stop then start + across (stop - start).toNat (s.share v)
  else start - across (start - stop).toNat (s.share v)

end Span

end TimingSweep
