/-!
# Areas

An `Area` is the part of a drawing in which the points lie, with the room around it for the labels
of the axes. `Area.of` divides a drawing and `Area.hold` brings a place into the area.
-/

namespace TimingSweep

/-- The edges of an area, and the outer edges of the room around it, counted from the left and from
the top. -/
structure Area where
  left : Int
  right : Int
  top : Int
  bottom : Int
  outerLeft : Int
  outerRight : Int
  outerTop : Int
  outerBottom : Int
  deriving DecidableEq

namespace Area

/-- The free border on all sides. -/
def border : Int := 20

/-- The left edge, which leaves room for the labels of the vertical axis. -/
def leftEdge : Int := 100

/-- The top edge, which leaves room for the title. -/
def topEdge : Int := 52

/-- The height of the labels of the horizontal axis. -/
def labelHeight : Int := 50

/-- The area of a drawing. Sizes are taken as signed numbers. Each way, two edges come from the
start of the drawing and two from its end; they are taken in order, so that in a small drawing the
room for labels comes to lie on the other side of the area. -/
def of (width height : UInt32) : Area :=
  let right := width.toInt32.toInt - border
  let bottom := height.toInt32.toInt - border
  { left := min leftEdge right
    right := max border right
    top := min topEdge bottom
    bottom := max topEdge (bottom - labelHeight)
    outerLeft := min border right
    outerRight := max leftEdge right
    outerTop := min topEdge (bottom - labelHeight)
    outerBottom := max topEdge bottom }

def roomLeft (a : Area) : Bool := a.outerLeft < a.left && a.top < a.bottom

def roomRight (a : Area) : Bool := a.right < a.outerRight && a.top < a.bottom

def roomAbove (a : Area) : Bool := a.outerTop < a.top && a.left < a.right

def roomBelow (a : Area) : Bool := a.bottom < a.outerBottom && a.left < a.right

/-- The place in an area nearest to a place. -/
def hold (a : Area) (place : Int × Int) : Int × Int :=
  (max a.left (min a.right place.1), max a.top (min a.bottom place.2))

end Area

end TimingSweep
