import StreetDogs.Plane

/-!
# Roads

Axis-aligned road segments between integer points.  A road keeps the order its
ends were declared in; `Road.span` is the normalised extent along the road.  A
dog may stand up to `halfWidth` beyond the ends or off the centre line.
-/

namespace StreetDogs

/-- An integer map coordinate. -/
abbrev Coord := Int32

/-- The coordinate as a binary64 number, which represents it exactly. -/
def Coord.real (c : Coord) : Float := Float.ofInt c.toInt

structure GridPoint where
  x : Coord
  y : Coord
deriving DecidableEq, Repr

def GridPoint.toVec (p : GridPoint) : Vec := ⟨Coord.real p.x, Coord.real p.y⟩

inductive Axis where
  | horizontal
  | vertical
deriving DecidableEq, Repr

namespace Axis

def perpendicular : Axis → Axis
  | horizontal => vertical
  | vertical => horizontal

def coord (axis : Axis) (p : GridPoint) : Coord :=
  match axis with
  | horizontal => p.x
  | vertical => p.y

def component (axis : Axis) (v : Vec) : Float :=
  match axis with
  | horizontal => v.x
  | vertical => v.y

/-- The vector with its coordinate along the axis replaced. -/
def withComponent (axis : Axis) (v : Vec) (value : Float) : Vec :=
  match axis with
  | horizontal => ⟨value, v.y⟩
  | vertical => ⟨v.x, value⟩

end Axis

/-- How far a dog may stand past the ends of a road or off its centre line,
and how near the centre line of a crossing road has to be for a turn. -/
def halfWidth : Float := 0.4

/-- `x` brought into the range from `low` to `high`; a value that is no number
stays as it is. -/
def clampTo (low high x : Float) : Float :=
  if x < low then low else if high < x then high else x

/-- An axis-aligned road from `start` to the point that has coordinate `stop`
along the axis. -/
structure Road where
  axis : Axis
  start : GridPoint
  stop : Coord
deriving DecidableEq, Repr

namespace Road

def horizontal (start : GridPoint) (stop : Coord) : Road := ⟨.horizontal, start, stop⟩

def vertical (start : GridPoint) (stop : Coord) : Road := ⟨.vertical, start, stop⟩

/-- The end point as declared. -/
def finish (road : Road) : GridPoint :=
  match road.axis with
  | .horizontal => ⟨road.stop, road.start.y⟩
  | .vertical => ⟨road.start.x, road.stop⟩

/-- The coordinate that is constant along the road. -/
def fixed (road : Road) : Coord := road.axis.perpendicular.coord road.start

def low (road : Road) : Coord := min (road.axis.coord road.start) road.stop

def high (road : Road) : Coord := max (road.axis.coord road.start) road.stop

def span (road : Road) : Coord × Coord := (road.low, road.high)

def xRange (road : Road) : Coord × Coord :=
  (min road.start.x road.finish.x, max road.start.x road.finish.x)

def yRange (road : Road) : Coord × Coord :=
  (min road.start.y road.finish.y, max road.start.y road.finish.y)

def sharesEnd (a b : Road) : Bool :=
  a.start == b.start || a.start == b.finish || a.finish == b.start || a.finish == b.finish

/-- The coordinate lies on the road's extent. -/
def spans (road : Road) (c : Coord) : Bool := decide (road.low ≤ c) && decide (c ≤ road.high)

/-- The position brought into the bounding box of the road widened by
`halfWidth` on all sides. -/
def clamp (road : Road) (position : Vec) : Vec where
  x := clampTo (Coord.real road.xRange.1 - halfWidth) (Coord.real road.xRange.2 + halfWidth)
    position.x
  y := clampTo (Coord.real road.yRange.1 - halfWidth) (Coord.real road.yRange.2 + halfWidth)
    position.y

/-- Clamping changes the position. -/
def moves (road : Road) (position : Vec) : Bool := !(road.clamp position == position)

/-- The position lies in the widened bounding box. -/
def contains (road : Road) (position : Vec) : Bool := !road.moves position

end Road

end StreetDogs
