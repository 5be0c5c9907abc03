import StreetDogs.Motion

/-!
# Driving straight on

Motion along the anchored road.  A candidate position beyond an end of the road
is followed onto a road that continues it, as often as needed, and then brought
back to the end of the last road reached.
-/

namespace StreetDogs

/-- `next` begins where `road` ends in the increasing direction, and reaches
further. -/
def Road.continuesUp (road next : Road) : Bool :=
  next.low == road.high && decide (road.high < next.high)

/-- `next` ends where `road` begins, and reaches further in the decreasing
direction. -/
def Road.continuesDown (road next : Road) : Bool :=
  next.high == road.low && decide (next.low < road.low)

namespace StreetMap

def adjacentRoad? (map : StreetMap) (index : Nat) (related : Road → Bool) : Option Nat :=
  (map.junctions.adjacent index).find? fun other => (map.road? other).any related

/-- The road onto which a dog leaves the road `index` when it heads for the
candidate. -/
def continuation? (map : StreetMap) (candidate : Vec) (index : Nat) : Option Nat :=
  match map.road? index with
  | none => none
  | some road =>
    let along := road.axis.component candidate
    if Coord.real road.high + halfWidth < along then
      map.adjacentRoad? index road.continuesUp
    else if along < Coord.real road.low - halfWidth then
      map.adjacentRoad? index road.continuesDown
    else
      none

def follow (map : StreetMap) (candidate : Vec) : Nat → Nat → Nat
  | 0, index => index
  | limit + 1, index =>
    match map.continuation? candidate index with
    | some next => follow map candidate limit next
    | none => index

/-- The road a dog is anchored to after driving from the road `index` towards
the candidate.  Every road followed reaches further than the one before, so as
many steps as there are roads are enough. -/
def anchor (map : StreetMap) (candidate : Vec) (index : Nat) : Nat :=
  map.follow candidate map.roads.length index

end StreetMap

namespace Motion

/-- Anchored to the road `index` after driving along it to the candidate: the
coordinate along the road is brought within the road, and a dog that is held
back stops. -/
def haltWithin (road : Road) (index : Nat) (candidate velocity : Vec) : Motion :=
  let along := road.axis.component candidate
  let limited :=
    clampTo (Coord.real road.low - halfWidth) (Coord.real road.high + halfWidth) along
  { road := index
    position := road.axis.withComponent candidate limited
    velocity := if limited == along then velocity else .zero }

def drive (map : StreetMap) (motion : Motion) (candidate : Vec) : Motion :=
  let index := map.anchor candidate motion.road
  match map.road? index with
  | some road => haltWithin road index candidate motion.velocity
  | none => motion

end Motion

end StreetDogs
