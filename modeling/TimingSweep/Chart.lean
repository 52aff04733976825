import TimingSweep.Sample

/-!
# Charts

A `Chart` is what a renderer draws: titles and labelled series of points. `Chart.bounds` is the box
around all points.

* `bounds_relabel`: renaming the series moves no point;
* `bounds_eq_none`: there is no box exactly if there is no point.
-/

namespace TimingSweep

/-- A labelled line through points. -/
structure Series where
  label : String
  points : List (Binary64 × Binary64)
  deriving DecidableEq

structure Chart where
  title : String
  xLabel : String
  yLabel : String
  series : List Series
  deriving DecidableEq

/-- The least and greatest coordinates of a set of points. -/
structure Box where
  left : Binary64
  right : Binary64
  bottom : Binary64
  top : Binary64
  deriving DecidableEq

namespace Box

def ofPoint (p : Binary64 × Binary64) : Box := ⟨p.1, p.1, p.2, p.2⟩

/-- The box widened to hold a point. -/
def extend (b : Box) (p : Binary64 × Binary64) : Box :=
  ⟨.min b.left p.1, .max b.right p.1, .min b.bottom p.2, .max b.top p.2⟩

end Box

namespace Chart

def sizeAxisLabel : String := "Size"

/-- A chart without series. -/
def new (title : String) (quantity : Quantity) : Chart :=
  ⟨title, sizeAxisLabel, quantity.axisLabel, []⟩

def relabel (rename : String → String) (c : Chart) : Chart :=
  { c with series := c.series.map fun s => { s with label := rename s.label } }

def points (c : Chart) : List (Binary64 × Binary64) := c.series.flatMap (·.points)

/-- The box around all points, if there are any. -/
def bounds (c : Chart) : Option Box :=
  match c.points with
  | [] => none
  | first :: rest => some (rest.foldl Box.extend (.ofPoint first))

def isEmpty (c : Chart) : Bool := c.series.isEmpty

theorem points_relabel (rename : String → String) (c : Chart) :
    (c.relabel rename).points = c.points := by
  simp [points, relabel, List.flatMap_map]

theorem bounds_relabel (rename : String → String) (c : Chart) :
    (c.relabel rename).bounds = c.bounds := by
  simp [bounds, points_relabel]

theorem bounds_eq_none {c : Chart} : c.bounds = none ↔ c.points = [] := by
  unfold bounds
  split <;> simp_all

def pointJson (p : Binary64 × Binary64) : Json.Value := .list [.number p.1, .number p.2]

def seriesJson (s : Series) : Json.Value :=
  .record [("label", .text s.label), ("points", .list (s.points.map pointJson))]

def toJson (c : Chart) : Json.Value :=
  .record [
    ("title", .text c.title),
    ("x_label", .text c.xLabel),
    ("y_label", .text c.yLabel),
    ("series", .list (c.series.map seriesJson))]

end Chart

end TimingSweep
