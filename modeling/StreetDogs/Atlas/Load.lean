import StreetDogs.Atlas.Record
import StreetDogs.Atlas.Codec
import StreetDogs.Game

/-!
# Loading maps

From a document of maps to the maps themselves.  Faults are reported in a fixed
order: the document, the default speed, and then map by map an identifier seen
before, a road without an end, and the rules of maps.
-/

namespace StreetDogs

/-- Why a document gives no maps. -/
inductive LoadError where
  | file (error : FileError)
  | document (fault : Json.Fault)
  | roadWithoutEnd (map : MapId) (road : Nat)
  | duplicateMap (map : MapId)
  | invalidDefaultSpeed (speed : Float)
  | invalidMap (error : StreetMapError)
deriving DecidableEq, Repr

def LoadError.message : LoadError → String
  | file .notFound => "failed to read the maps: no such file"
  | file .isDirectory => "failed to read the maps: is a directory"
  | file .notText => "failed to read the maps: not a text file"
  | document fault => s!"malformed config: {fault.message}"
  | roadWithoutEnd map road => s!"map {map}: road {road} has neither x1 nor y1"
  | duplicateMap map => s!"map with id {map} already exists"
  | invalidDefaultSpeed speed => s!"invalid default dog speed {plainText speed}"
  | invalidMap error => error.message

namespace RoadRecord

/-- The road described, if it has an end. -/
def toRoad? (record : RoadRecord) : Option Road :=
  match record.x1, record.y1 with
  | some x1, _ => some (.horizontal ⟨record.x0, record.y0⟩ x1)
  | none, some y1 => some (.vertical ⟨record.x0, record.y0⟩ y1)
  | none, none => none

def ofRoad (road : Road) : RoadRecord :=
  match road.axis with
  | .horizontal => { x0 := road.start.x, y0 := road.start.y, x1 := some road.finish.x }
  | .vertical => { x0 := road.start.x, y0 := road.start.y, y1 := some road.finish.y }

end RoadRecord

namespace BuildingRecord

def toBuilding (record : BuildingRecord) : Building :=
  ⟨⟨record.x, record.y⟩, ⟨record.w, record.h⟩⟩

def ofBuilding (building : Building) : BuildingRecord where
  x := building.bounds.position.x
  y := building.bounds.position.y
  w := building.bounds.size.width
  h := building.bounds.size.height

end BuildingRecord

namespace OfficeRecord

def toOffice (record : OfficeRecord) : Office :=
  ⟨record.id, ⟨record.x, record.y⟩, ⟨record.offsetX, record.offsetY⟩⟩

def ofOffice (office : Office) : OfficeRecord where
  id := office.id
  x := office.position.x
  y := office.position.y
  offsetX := office.offset.dx
  offsetY := office.offset.dy

end OfficeRecord

namespace MapRecord

/-- The roads described from the index `index` on, or the index of the first
one without an end. -/
def toRoads (index : Nat) : List RoadRecord → Except Nat (List Road)
  | [] => .ok []
  | record :: records =>
    match record.toRoad? with
    | none => .error index
    | some road => (toRoads (index + 1) records).map (road :: ·)

def toMap (record : MapRecord) : Except LoadError StreetMap := do
  let roads ← (toRoads 0 record.roads).mapError (.roadWithoutEnd record.id ·)
  (StreetMap.new record.id record.name roads (record.buildings.map (·.toBuilding))
    (record.offices.map (·.toOffice)) record.dogSpeed).mapError .invalidMap

def ofMap (map : StreetMap) : MapRecord where
  id := map.id
  name := map.name
  dogSpeed := map.dogSpeed
  roads := map.roads.map .ofRoad
  buildings := map.buildings.map .ofBuilding
  offices := map.offices.map .ofOffice

end MapRecord

/-- The maps of a document and the speed of dogs on maps that set none. -/
structure LoadedMaps where
  defaultDogSpeed : Float
  maps : List StreetMap

namespace Atlas

/-- The speed of dogs where neither the map nor the document sets one. -/
def fallbackDogSpeed : Float := 1.0

def defaultSpeed : Option Float → Except LoadError Float
  | none => .ok fallbackDogSpeed
  | some speed => if usableSpeed speed then .ok speed else .error (.invalidDefaultSpeed speed)

/-- The maps described, none of which may have one of the identifiers seen. -/
def toMaps (seen : List MapId) : List MapRecord → Except LoadError (List StreetMap)
  | [] => .ok []
  | record :: records =>
    if record.id ∈ seen then
      .error (.duplicateMap record.id)
    else do
      let map ← record.toMap
      let maps ← toMaps (record.id :: seen) records
      return map :: maps

def load (atlas : Atlas) : Except LoadError LoadedMaps := do
  let speed ← defaultSpeed atlas.defaultDogSpeed
  let maps ← toMaps [] atlas.maps
  return ⟨speed, maps⟩

def parse (text : String) : Except LoadError LoadedMaps :=
  match decoder.decode text with
  | .ok atlas => atlas.load
  | .error fault => .error (.document fault)

/-- The maps of a file, given by its bytes or by what keeps it from being read. -/
def loadFile : Except FileError ByteArray → Except LoadError LoadedMaps
  | .error error => .error (.file error)
  | .ok bytes =>
    match String.fromUTF8? bytes with
    | some text => parse text
    | none => .error (.file .notText)

end Atlas

namespace Game

/-- A game over the maps of a document, whose default speed takes the place of
the one in the settings. -/
def ofLoaded (loaded : LoadedMaps) (settings : GameSettings) (entropy : Supply UInt64)
    (tokens : Supply Token) : Except LoadError Game :=
  (Game.new loaded.maps { settings with defaultDogSpeed := loaded.defaultDogSpeed } entropy
    tokens).mapError .duplicateMap

end Game

end StreetDogs
