import StreetDogs.Junction
import StreetDogs.Repeat
import StreetDogs.Decimal.Layout

/-!
# Maps

A map holds roads, buildings and offices.  It is built once and never changed,
and it carries the junctions of its roads.  The rules every map obeys (at least
one road, distinct offices, a usable speed) are fields of the type.
-/

namespace StreetDogs

/-- Identifier of a map, as it stands in documents and requests. -/
abbrev MapId := String

structure Size where
  width : Coord
  height : Coord
deriving DecidableEq, Repr

structure Rectangle where
  position : GridPoint
  size : Size
deriving DecidableEq, Repr

structure Offset where
  dx : Coord
  dy : Coord
deriving DecidableEq, Repr

structure Building where
  bounds : Rectangle
deriving DecidableEq, Repr

structure Office where
  id : String
  position : GridPoint
  offset : Offset
deriving DecidableEq, Repr

/-- A speed has to be finite and not negative; negative zero is accepted. -/
def usableSpeed (speed : Float) : Bool := speed.isFinite && !decide (speed < 0.0)

/-- A map of a road network. -/
structure StreetMap where
  id : MapId
  name : String
  roads : List Road
  buildings : List Building
  offices : List Office
  /-- Speed of the dogs on this map, if it sets one. -/
  dogSpeed : Option Float
  /-- The contacts between the roads. -/
  junctions : Junctions := .ofRoads roads
  roads_ne_nil : roads ≠ []
  offices_nodup : (offices.map (·.id)).Nodup
  dogSpeed_usable : ∀ speed ∈ dogSpeed, usableSpeed speed = true
  junctions_eq : junctions = .ofRoads roads := by rfl

inductive StreetMapError where
  | noRoads (map : MapId)
  | duplicateOffice (map : MapId) (office : String)
  | invalidSpeed (map : MapId) (speed : Float)
deriving DecidableEq, Repr

def StreetMapError.message : StreetMapError → String
  | noRoads map => s!"map {map} has no roads"
  | duplicateOffice map office => s!"map {map} declares office {office} twice"
  | invalidSpeed map speed => s!"map {map} has invalid dog speed {plainText speed}"

namespace StreetMap

/-- Builds a map, reporting the first rule that is broken: no roads, an office
that repeats an earlier one, an unusable speed. -/
def new (id : MapId) (name : String) (roads : List Road) (buildings : List Building)
    (offices : List Office) (dogSpeed : Option Float) : Except StreetMapError StreetMap :=
  if hroads : roads = [] then
    .error (.noRoads id)
  else
    match hoffices : firstRepeat? [] (offices.map (·.id)) with
    | some office => .error (.duplicateOffice id office)
    | none =>
      match hspeed : dogSpeed with
      | none =>
        .ok {
          id, name, roads, buildings, offices, dogSpeed := none
          roads_ne_nil := hroads
          offices_nodup := (firstRepeat?_nil_eq_none_iff _).mp hoffices
          dogSpeed_usable := by simp }
      | some speed =>
        if husable : usableSpeed speed = true then
          .ok {
            id, name, roads, buildings, offices, dogSpeed := some speed
            roads_ne_nil := hroads
            offices_nodup := (firstRepeat?_nil_eq_none_iff _).mp hoffices
            dogSpeed_usable := by simpa using husable }
        else
          .error (.invalidSpeed id speed)

/-- The road a dog starts on when nothing is left to chance. -/
def firstRoad (map : StreetMap) : Road := map.roads.head map.roads_ne_nil

def road? (map : StreetMap) (index : Nat) : Option Road := map.roads[index]?

end StreetMap

end StreetDogs
