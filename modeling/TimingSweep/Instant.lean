/-!
# Instants

A time of day on a date, counted in nanoseconds from the beginning of 1970, and its text: the date,
the time, and as many places of the second as are needed, in threes.
-/

namespace TimingSweep

structure Instant where
  nanoseconds : Nat
  deriving DecidableEq

namespace Instant

/-- A number with zeros in front up to a width. -/
def padded (width n : Nat) : String :=
  let digits := Nat.toDigits 10 n
  .ofList (List.replicate (width - digits.length) '0' ++ digits)

/-- The days before 1970 in a count that begins with the first of March of year zero. -/
def daysBefore : Nat := 719468

/-- The days of 400 years, after which the calendar repeats itself. -/
def daysOfCycle : Nat := 146097

/-- Year, month and day of a day, counted from the beginning of 1970. Years that begin with March
have their leap day at the end, so that months have fixed beginnings. -/
def date (day : Nat) : Nat × Nat × Nat :=
  let count := day + daysBefore
  let inCycle := count % daysOfCycle
  let year := (inCycle - inCycle / 1460 + inCycle / 36524 - inCycle / 146096) / 365
  let inYear := inCycle - (365 * year + year / 4 - year / 100)
  let month := (5 * inYear + 2) / 153
  let inMonth := inYear - (153 * month + 2) / 5 + 1
  let year := year + count / daysOfCycle * 400
  if month < 10 then (year, month + 3, inMonth) else (year + 1, month - 9, inMonth)

/-- The places of a second: none, three, six or nine. -/
def fraction (nanoseconds : Nat) : String :=
  if nanoseconds = 0 then ""
  else if nanoseconds % 1000000 = 0 then "." ++ padded 3 (nanoseconds / 1000000)
  else if nanoseconds % 1000 = 0 then "." ++ padded 6 (nanoseconds / 1000)
  else "." ++ padded 9 nanoseconds

def text (i : Instant) : String :=
  let seconds := i.nanoseconds / 1000000000
  let (year, month, day) := date (seconds / 86400)
  let clock := seconds % 86400
  padded 4 year ++ "-" ++ padded 2 month ++ "-" ++ padded 2 day ++ "T" ++ padded 2 (clock / 3600) ++
    ":" ++ padded 2 (clock / 60 % 60) ++ ":" ++ padded 2 (clock % 60) ++
    fraction (i.nanoseconds % 1000000000) ++ "Z"

end Instant

end TimingSweep
