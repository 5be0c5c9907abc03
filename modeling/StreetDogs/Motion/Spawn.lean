import StreetDogs.Motion
import StreetDogs.Random.Uniform

/-!
# Starting points

A dog starts at the start of the first road, or at a point chosen in two steps:
a road by its index, every road being equally likely, and then a point of that
road.
-/

namespace StreetDogs

/-- A point of the road's centre line, chosen uniformly. -/
def Road.randomPoint (road : Road) (words : Supply UInt64) : Vec × Supply UInt64 :=
  let (along, rest) := Uniform.coordinate (Coord.real road.low) (Coord.real road.high) words
  let fixed := Coord.real road.fixed
  match road.axis with
  | .horizontal => (⟨along, fixed⟩, rest)
  | .vertical => (⟨fixed, along⟩, rest)

namespace Motion

def spawn (map : StreetMap) (randomize : Bool) (words : Supply UInt64) :
    Motion × Supply UInt64 :=
  if randomize then
    let (index, words) := Uniform.index map.roads.length words
    let road := (map.road? index).getD map.firstRoad
    let (position, words) := road.randomPoint words
    (atRest index position, words)
  else
    (atRest 0 map.firstRoad.start.toVec, words)

end Motion

end StreetDogs
