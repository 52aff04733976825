import TimingSweep.Chart
import TimingSweep.Filing

/-!
# Reports

A `Report` holds the samples of one algorithm by backend, in the order in which they were taken. It
is presented as text, as JSON, or as a chart of its valid samples.

* `samples_add`: adding a sample appends it to its backend's and changes no other;
* `backends_add`: backends stand in the order of their first samples.
-/

namespace TimingSweep

structure Report where
  algorithm : String
  generatedAt : String
  series : Filing Sample
  deriving DecidableEq

namespace Report

def new (algorithm generatedAt : String) : Report := ⟨algorithm, generatedAt, []⟩

def add (r : Report) (backend : String) (size : UInt64) (elapsed : Binary64) : Report :=
  { r with series := r.series.add backend [⟨size, elapsed⟩] }

/-- The samples of a backend in the order they were added. -/
def samples (r : Report) (backend : String) : List Sample := r.series.get backend

def backends (r : Report) : List String := r.series.labels

def contains (r : Report) (backend : String) : Bool := r.backends.contains backend

def isEmpty (r : Report) : Bool := r.series.isEmpty

/-- The number of samples of all backends. -/
def sampleCount (r : Report) : Nat := (r.series.flatMap (·.2)).length

theorem samples_add (r : Report) (backend other : String) (size : UInt64) (elapsed : Binary64) :
    (r.add backend size elapsed).samples other =
      r.samples other ++ if other = backend then [⟨size, elapsed⟩] else [] :=
  Filing.get_add ..

theorem backends_add (r : Report) (backend : String) (size : UInt64) (elapsed : Binary64) :
    (r.add backend size elapsed).backends =
      if backend ∈ r.backends then r.backends else r.backends ++ [backend] :=
  Filing.labels_add ..

/-- The decimal places of the times in the text report. -/
def timePlaces : Nat := 6

/-- The row of a sample: its size and its time. -/
def row (s : Sample) : String :=
  toString s.size.toNat ++ "," ++ .ofList (Binary64.fixed timePlaces s.elapsed) ++ "\n"

/-- The block of a backend: a title, the names of the columns, and a row for each sample. -/
def block (algorithm : String) (entry : String × List Sample) : String :=
  "=== " ++ algorithm ++ " with " ++ entry.1 ++ " ===\n" ++ "size,time (ms)\n" ++
    String.join (entry.2.map row)

/-- The text report: the blocks of all backends. -/
def toText (r : Report) : String := String.join (r.series.map (block r.algorithm))

def toJson (r : Report) : Json.Value :=
  .record [
    ("algorithm", .text r.algorithm),
    ("generated_at", .text r.generatedAt),
    ("series", .record (r.series.map fun entry => (entry.1, .list (entry.2.map Sample.toJson))))]

/-- The point of a sample. -/
def point (quantity : Quantity) (s : Sample) : Binary64 × Binary64 :=
  (.ofNat s.size.toNat, quantity.of s)

/-- The line of a backend through its valid samples, if it has any. -/
def line? (r : Report) (quantity : Quantity) (backend : String) : Option Series :=
  match (r.samples backend).filter Sample.isValid with
  | [] => none
  | valid => some ⟨backend, valid.map (point quantity)⟩

/-- The chart of the given backends in their order, without those that have no line. -/
def chart (r : Report) (quantity : Quantity) (backends : List String) : Chart :=
  { Chart.new r.algorithm quantity with series := backends.filterMap (r.line? quantity) }

end Report

end TimingSweep
