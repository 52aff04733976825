import TimingSweep.Chart
import TimingSweep.Drawing.Area
import TimingSweep.Drawing.Ticks

/-!
# Drawings

A `Drawing` says what is drawn of a chart: its size and title, the labels of its axes, a line and a
legend entry for each series, and a marker for each point. The two axes place the markers in the
area of the drawing.

* `legend_of`: the legend names the series in their order.
-/

namespace TimingSweep

/-- A filled circle around a place that is counted from the left and from the top. -/
structure Marker where
  x : Int
  y : Int
  radius : Nat
  color : String
  deriving DecidableEq

/-- How an axis is labelled: by a title and the labels of its ticks, on the near side, which is left
of the area or below it, and on the far side, where there is room. -/
structure Scale where
  title : String
  ticks : List String
  near : Bool
  far : Bool
  deriving DecidableEq

/-- Lines and legend keys are given by their colour and the number of their vertices. -/
structure Drawing where
  width : UInt32
  height : UInt32
  title : String
  x : Scale
  y : Scale
  legend : List String
  lines : List (String × Nat)
  keys : List (String × Nat)
  markers : List Marker
  deriving DecidableEq

namespace Drawing

/-- The colours of the series, used over again after the last. -/
def palette : List String :=
  ["#E6194B", "#3CB44B", "#FFE119", "#0082C8", "#F58230", "#911EB4", "#46F0F0",
    "#F032E6", "#D2F53C", "#FABEBE", "#008080", "#E6BEFF", "#AA6E28", "#FFFAC8",
    "#800000", "#AAFFC3", "#808000", "#FFD7B4", "#000080", "#808080", "#000000"]

def color (index : Nat) : String := palette.getD (index % palette.length) ""

def markerRadius : Nat := 4

/-- The vertices of the short line beside a label of the legend. -/
def keyVertices : Nat := 2

/-- The horizontal and the vertical axis of a chart. -/
def axes (c : Chart) : Axis × Axis :=
  match c.bounds with
  | none => (.decade, .decade)
  | some box => (.around box.left box.right, .around box.bottom box.top)

/-- The marker of a point: it lies between the left and the right edge of the area by the span of
the horizontal axis, and between the bottom and the top edge by that of the vertical one. -/
def marker (area : Area) (x y : Span) (index : Nat) (p : Binary64 × Binary64) : Marker :=
  let place := area.hold
    (x.place area.left (area.right - 1) p.1, y.place (area.bottom - 1) area.top p.2)
  ⟨place.1, place.2, markerRadius, color index⟩

/-- The labels of the horizontal axis. -/
def xScale (area : Area) (a : Axis) (title : String) : Scale :=
  ⟨title, a.labels area.left (area.right - 1), area.roomBelow, area.roomAbove⟩

/-- The labels of the vertical axis. -/
def yScale (area : Area) (a : Axis) (title : String) : Scale :=
  ⟨title, a.labels (area.bottom - 1) area.top, area.roomLeft, area.roomRight⟩

/-- The markers of a chart, series after series. -/
def markersOf (area : Area) (c : Chart) : List Marker :=
  let x := (axes c).1.span
  let y := (axes c).2.span
  c.series.zipIdx.flatMap fun (s, index) => s.points.map (marker area x y index)

/-- Draws a chart. A series without points has no line, but its legend entry. -/
def of (width height : UInt32) (c : Chart) : Drawing where
  width
  height
  title := c.title
  x := xScale (.of width height) (axes c).1 c.xLabel
  y := yScale (.of width height) (axes c).2 c.yLabel
  legend := c.series.map (·.label)
  lines := (c.series.zipIdx.filter fun (s, _) => !s.points.isEmpty).map fun (s, index) =>
    (color index, s.points.length)
  keys := c.series.zipIdx.map fun (_, index) => (color index, keyVertices)
  markers := markersOf (.of width height) c

theorem legend_of (width height : UInt32) (c : Chart) :
    (of width height c).legend = c.series.map (·.label) := rfl

end Drawing

end TimingSweep
