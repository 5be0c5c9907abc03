import StreetDogs.Motion

/-!
# Turning

Motion across the anchored road.  It is possible where another road crosses
within reach; elsewhere the dog stays within the half-width of its road.
-/

namespace StreetDogs

def Road.inReach (other : Road) (cross : Float) : Bool :=
  decide ((Coord.real other.fixed - cross).abs ≤ halfWidth)

/-- A crossing road lies entirely on the side of the centre line `fixed` that
the dog heads to. -/
def Road.liesAhead (other : Road) (heading : Heading) (fixed : Coord) : Bool :=
  if heading.isForward then decide (fixed ≤ other.low) else decide (other.high ≤ fixed)

def Road.covers (other : Road) (travel : Float) : Bool :=
  decide (Coord.real other.low ≤ travel) && decide (travel ≤ Coord.real other.high)

namespace StreetMap

def crossingRoad? (map : StreetMap) (index : Nat) (related : Road → Bool) : Option Nat :=
  (map.junctions.crossings index).find? fun other => (map.road? other).any related

/-- A crossing road within reach that lies on the side headed to, so that the
turn leads straight onto it. -/
def crossingAhead? (map : StreetMap) (index : Nat) (road : Road) (heading : Heading)
    (candidate : Vec) : Option Nat :=
  map.crossingRoad? index fun other =>
    other.liesAhead heading road.fixed && other.inReach (road.axis.component candidate)

def crossingAt? (map : StreetMap) (index : Nat) (road : Road) (candidate : Vec) : Option Nat :=
  map.crossingRoad? index fun other =>
    other.covers (road.axis.perpendicular.component candidate) &&
      other.inReach (road.axis.component candidate)

end StreetMap

namespace Motion

/-- Anchored to another road: the candidate is brought into the widened box of
that road, and a dog that is held back stops. -/
def enter (road : Road) (index : Nat) (candidate velocity : Vec) : Motion :=
  { road := index
    position := road.clamp candidate
    velocity := if road.moves candidate then .zero else velocity }

/-- Held on the anchored road: the coordinate across it is brought within the
half-width of the centre line, and a dog that is held back stops. -/
def hold (road : Road) (motion : Motion) (candidate : Vec) : Motion :=
  let axis := road.axis.perpendicular
  let fixed := Coord.real road.fixed
  let travel := axis.component candidate
  let limited := clampTo (fixed - halfWidth) (fixed + halfWidth) travel
  { motion with
    position := axis.withComponent candidate limited
    velocity := if limited == travel then motion.velocity else .zero }

def turn (map : StreetMap) (road : Road) (heading : Heading) (motion : Motion)
    (candidate : Vec) : Motion :=
  let target :=
    (map.crossingAhead? motion.road road heading candidate).or
      (map.crossingAt? motion.road road candidate)
  match target with
  | none => hold road motion candidate
  | some index =>
    match map.road? index with
    | some next => enter next index candidate motion.velocity
    | none => hold road motion candidate

end Motion

end StreetDogs
