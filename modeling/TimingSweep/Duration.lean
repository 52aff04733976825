import TimingSweep.Number.Decimal

/-!
# Durations

A number of milliseconds in words: below a second as it is, below a minute in seconds with two
places, and from then on in whole minutes and seconds.
-/

namespace TimingSweep

structure Duration where
  milliseconds : UInt64
  deriving DecidableEq

namespace Duration

/-- The whole milliseconds of an interval, counted modulo `2 ^ 64`. -/
def ofSeconds (seconds nanoseconds : Nat) : Duration :=
  ⟨.ofNat (seconds * 1000 + nanoseconds / 1000000)⟩

def words (d : Duration) : String :=
  let ms := d.milliseconds.toNat
  if ms < 1000 then toString ms ++ "ms"
  else if ms < 60000 then
    .ofList (Binary64.fixed 2 (Binary64.ofNat ms / Binary64.ofNat 1000)) ++ "s"
  else toString (ms / 1000 / 60) ++ "m " ++ toString (ms / 1000 % 60) ++ "s"

end Duration

end TimingSweep
