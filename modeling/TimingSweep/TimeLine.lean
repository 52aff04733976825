import TimingSweep.Number.Decimal
import TimingSweep.Text.Blank
import TimingSweep.Text.Quoted

/-!
# Time lines

A benchmark reports its time on a line that begins with `time:`. The last such line counts; its
first word is the number of milliseconds, and what follows the word is ignored.

* `read_of_noTimeLine`: without a time line there is no time;
* `read_of_last`: only the last time line matters.
-/

namespace TimingSweep

/-- Why an output gives no time: there is no time line, or the last one does not begin with a finite
number that is not negative. -/
inductive TimeFault where
  | missing
  | malformed (text : List Char)
  deriving DecidableEq

def TimeFault.message : TimeFault → String
  | .missing => "no time line in output"
  | .malformed text => "unparseable time value: " ++ .ofList (Quoted.quote text)

namespace TimeLine

def mark : List Char := "time:".toList

/-- What stands behind the mark, if a line begins with it. -/
def afterMark? (line : List Char) : Option (List Char) :=
  if mark.isPrefixOf line then some (line.drop mark.length) else none

/-- What stands behind the mark of the last time line. -/
def last? (output : List Char) : Option (List Char) :=
  ((output.splitOn '\n').filterMap afterMark?).getLast?

/-- The time given by what stands behind the mark. -/
def time (rest : List Char) : Except TimeFault Binary64 :=
  match Decimal.read? (firstWord rest) with
  | none => .error (.malformed (trim rest))
  | some (negative, decimal) =>
    let elapsed := decimal.toBinary64 negative
    if elapsed.isFinite && Binary64.le .zero elapsed then .ok elapsed
    else .error (.malformed (trim rest))

/-- The time that an output reports. -/
def read (output : List Char) : Except TimeFault Binary64 :=
  match last? output with
  | none => .error .missing
  | some rest => time rest

theorem read_of_noTimeLine {output : List Char} (h : last? output = none) :
    read output = .error .missing := by
  simp [read, h]

theorem read_of_last {output rest : List Char} (h : last? output = some rest) :
    read output = time rest := by
  simp [read, h]

end TimeLine

end TimingSweep
