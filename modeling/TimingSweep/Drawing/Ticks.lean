import TimingSweep.Drawing.Axis
import TimingSweep.Number.Decimal

/-!
# Ticks

The coordinates at which an axis is labelled, and the texts of the labels. These are powers of ten;
where there are many, only every second one, every third one and so on, and where the axis extends
over less than two decades, the multiples of each power as well.
-/

namespace TimingSweep.Axis

/-- The most powers of ten that are labelled. -/
def maxTicks : Nat := 11

def ten : Binary64 := .ofNat 10

/-- The ends in the order of the numbers that count. -/
def ends (a : Axis) : Binary64 × Binary64 :=
  let low := reflect a.mirrored a.low
  let high := reflect a.mirrored a.high
  if Binary64.lt high low then (high, low) else (low, high)

/-- The whole decades from a number to a greater one, at least one. -/
def decades (low high : Binary64) : Nat := max 1 ((high / low).ln / ten.ln).floor.toNat

/-- The exponent of the first power of ten from a positive number on. -/
def firstPower (low : Binary64) : Int := -(-(low.ln / ten.ln)).floor

/-- The distance from one to the next double. Powers below it are not labelled. -/
def epsilon : Binary64 := .ofRatio false 1 (2 ^ 52)

/-- Numbers up to `high`: a power, its multiples by `parts`, and so on from `step` times the power,
without the powers below `epsilon` and their multiples. At most `count` powers are formed. -/
def climb (high step : Binary64) (parts : List Binary64) : (count : Nat) → Binary64 → List Binary64
  | 0, _ => []
  | count + 1, power =>
    if Binary64.le power high then
      let labelled := power :: (parts.map (power * ·)).filter (Binary64.le · high)
      (if Binary64.lt power epsilon then [] else labelled) ++
        climb high step parts count (power * step)
    else []

/-- The finite doubles extend over fewer powers of ten than this. -/
def powerCount : Nat := 700

/-- The factors by which the multiples of a power are formed. The last one reaches the next power,
which is then labelled twice. -/
def multiples : List Binary64 := (List.range 9).map fun n => .ofNat (n + 2)

/-- The coordinates of the ticks. An axis of which a part has no logarithm has none. -/
def ticks (a : Axis) : List Binary64 :=
  let (low, high) := a.ends
  if low.place ≤ 0 then []
  else
    let decades := decades low high
    let step := .ofNat (10 ^ (decades / (maxTicks + 1) + 1))
    let parts := if decades = 1 then multiples else []
    (climb high step parts powerCount (ten.pow (firstPower low))).map (reflect a.mirrored)

/-- Labels are written positionally from the ten-thousandths to sixteen digits before the point. -/
def labelLayout : Decimal.Layout := ⟨-4, 15, []⟩

/-- The text of a tick. -/
def label (v : Binary64) : String :=
  .ofList (v.sign ++ Decimal.write labelLayout (Binary64.shortest v.rank))

/-- The labels of the ticks that lie between two pixels. -/
def labels (a : Axis) (start stop : Int) : List String :=
  let span := a.span
  let lies (v : Binary64) : Bool :=
    let place := span.place start stop v
    min start stop ≤ place && place ≤ max start stop
  (a.ticks.filter lies).map label

end TimingSweep.Axis
