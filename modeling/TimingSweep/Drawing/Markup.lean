import TimingSweep.Drawing

/-!
# Markup of drawings

The text of a drawing: an `svg` element with the titles, a line through the markers of each series,
the markers, and the legend. It is meant to be put into a page.
-/

namespace TimingSweep.Drawing

/-- A character of a text. Those with a meaning in markup are named. -/
def escaped (c : Char) : String :=
  if c = '&' then "&amp;"
  else if c = '<' then "&lt;"
  else if c = '>' then "&gt;"
  else if c = '"' then "&quot;"
  else c.toString

def plainText (text : String) : String := String.join (text.toList.map escaped)

/-- An element with its attributes and what it encloses. -/
def element (name : String) (attributes : List (String × String)) (inner : String) : String :=
  let written := attributes.map fun (key, value) => " " ++ key ++ "=\"" ++ plainText value ++ "\""
  "<" ++ name ++ String.join written ++ ">" ++ inner ++ "</" ++ name ++ ">\n"

/-- Cuts a list into runs of the given lengths. -/
def runs {α : Type} : List Nat → List α → List (List α)
  | [], _ => []
  | length :: rest, items => items.take length :: runs rest (items.drop length)

def textAt (x y : Int) (text : String) : String :=
  element "text" [("x", toString x), ("y", toString y)] (plainText text)

/-- A line through vertices. -/
def polyline (color : String) (vertices : List (Int × Int)) : String :=
  let points := vertices.map fun (x, y) => toString x ++ "," ++ toString y
  element "polyline" [("fill", "none"), ("stroke", color), ("stroke-width", "2"),
    ("points", String.intercalate " " points)] ""

def circle (m : Marker) : String :=
  element "circle" [("cx", toString m.x), ("cy", toString m.y), ("r", toString m.radius),
    ("fill", m.color)] ""

/-- An entry of the legend: a short line and the label, one entry below the other. -/
def legendEntry (entry : (String × String) × Nat) : String :=
  let ((color, label), index) := entry
  let x := Area.leftEdge
  let y := Area.topEdge + 20 * (index + 1)
  polyline color [(x + 10, y), (x + 30, y)] ++ textAt (x + 40) y label

def markup (d : Drawing) : String :=
  let middle : Int := d.width.toNat / 2
  let floor : Int := d.height.toNat - 20
  let background := element "rect" [("width", "100%"), ("height", "100%"), ("fill", "#FFFFFF")] ""
  let titles := textAt middle 30 d.title ++ textAt middle floor d.x.title ++
    textAt 10 Area.topEdge d.y.title
  let vertices := (runs (d.lines.map (·.2)) d.markers).map fun run =>
    run.map fun m => (m.x, m.y)
  let lines := (d.lines.zip vertices).map fun (line, vertices) => polyline line.1 vertices
  let legend := ((d.keys.map (·.1)).zip d.legend).zipIdx.map legendEntry
  element "svg" [("width", toString d.width.toNat), ("height", toString d.height.toNat)]
    ("\n" ++ background ++ titles ++ String.join lines ++ String.join (d.markers.map circle) ++
      String.join legend)

end TimingSweep.Drawing
