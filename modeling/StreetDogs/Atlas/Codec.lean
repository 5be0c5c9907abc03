import StreetDogs.Atlas.Record
import StreetDogs.Heading
import StreetDogs.Token
import StreetDogs.Json.Decoder

/-!
# Documents of maps

The decoder and the written form of every type that stands in documents.  An
object may also be written as the array of its fields in order, where trailing
fields that have a default may be left off.
-/

namespace StreetDogs

open Json (Value Fault Decoder Items Members)

def Coord.toJson (c : Coord) : Value := .int c.toInt

/-- A member that is left out when it is absent. -/
def optionalMember {α : Type} (name : String) (toJson : α → Value) :
    Option α → List (String × Value)
  | none => []
  | some value => [(name, toJson value)]

/-! ## Pairs and quadruples of like fields -/

def pairDecoder {α β : Type} (first second : String) (item : Decoder α)
    (build : α → α → β) : Decoder β :=
  Decoder.record
    (fun levels values => do
      let (a, b) ← Decoder.members known levels (none, none) values
      return build (← Decoder.required first a) (← Decoder.required second b))
    (fun levels values => do
      let (a, values) ← Decoder.field item levels values
      let (b, values) ← Decoder.field item levels values
      Decoder.lastField values
      return build a b)
where
  known (key : String) (draft : Option α × Option α) :
      Option (Decoder (Option α × Option α)) :=
    if key = first then
      some (Decoder.once first draft.1 item fun value => (some value, draft.2))
    else if key = second then
      some (Decoder.once second draft.2 item fun value => (draft.1, some value))
    else none

namespace Vec

def decoder : Decoder Vec := pairDecoder "x" "y" Decoder.real .mk

def toJson (v : Vec) : Value := .object [("x", .real v.x), ("y", .real v.y)]

end Vec

namespace GridPoint

def decoder : Decoder GridPoint := pairDecoder "x" "y" Decoder.int32 .mk

def toJson (p : GridPoint) : Value := .object [("x", p.x.toJson), ("y", p.y.toJson)]

end GridPoint

namespace Size

def decoder : Decoder Size := pairDecoder "width" "height" Decoder.int32 .mk

def toJson (size : Size) : Value :=
  .object [("width", size.width.toJson), ("height", size.height.toJson)]

end Size

namespace Offset

def decoder : Decoder Offset := pairDecoder "dx" "dy" Decoder.int32 .mk

def toJson (offset : Offset) : Value :=
  .object [("dx", offset.dx.toJson), ("dy", offset.dy.toJson)]

end Offset

namespace Rectangle

/-- The members of a rectangle met so far. -/
structure Draft where
  position : Option GridPoint := none
  size : Option Size := none

def Draft.known (key : String) (draft : Draft) : Option (Decoder Draft) :=
  match key with
  | "position" =>
    some (Decoder.once key draft.position GridPoint.decoder ({ draft with position := some · }))
  | "size" => some (Decoder.once key draft.size Size.decoder ({ draft with size := some · }))
  | _ => none

def decoder : Decoder Rectangle :=
  Decoder.record
    (fun levels values => do
      let draft ← Decoder.members Draft.known levels {} values
      return {
        position := ← Decoder.required "position" draft.position
        size := ← Decoder.required "size" draft.size })
    (fun levels values => do
      let (position, values) ← Decoder.field GridPoint.decoder levels values
      let (size, values) ← Decoder.field Size.decoder levels values
      Decoder.lastField values
      return { position, size })

def toJson (rectangle : Rectangle) : Value :=
  .object [("position", rectangle.position.toJson), ("size", rectangle.size.toJson)]

end Rectangle

namespace Axis

def decoder : Decoder Axis := Decoder.unitVariant name all

def toJson (axis : Axis) : Value := .string axis.name

end Axis

namespace Heading

def decoder : Decoder Heading := Decoder.unitVariant name all

def toJson (heading : Heading) : Value := .string heading.name

end Heading

namespace Token

/-- Documents hold a token as any string. -/
def decoder : Decoder Token := fun levels node => (Decoder.string levels node).map .mk

def toJson (token : Token) : Value := .string token.text

end Token

namespace RoadRecord

structure Draft where
  x0 : Option Coord := none
  y0 : Option Coord := none
  x1 : Option (Option Coord) := none
  y1 : Option (Option Coord) := none

def Draft.known (key : String) (draft : Draft) : Option (Decoder Draft) :=
  match key with
  | "x0" => some (Decoder.once key draft.x0 Decoder.int32 ({ draft with x0 := some · }))
  | "y0" => some (Decoder.once key draft.y0 Decoder.int32 ({ draft with y0 := some · }))
  | "x1" =>
    some (Decoder.once key draft.x1 (Decoder.nullable Decoder.int32) ({ draft with x1 := some · }))
  | "y1" =>
    some (Decoder.once key draft.y1 (Decoder.nullable Decoder.int32) ({ draft with y1 := some · }))
  | _ => none

def decoder : Decoder RoadRecord :=
  Decoder.record
    (fun levels values => do
      let draft ← Decoder.members Draft.known levels {} values
      return {
        x0 := ← Decoder.required "x0" draft.x0
        y0 := ← Decoder.required "y0" draft.y0
        x1 := draft.x1.getD none
        y1 := draft.y1.getD none })
    (fun levels values => do
      let (x0, values) ← Decoder.field Decoder.int32 levels values
      let (y0, values) ← Decoder.field Decoder.int32 levels values
      let (x1, values) ← Decoder.fieldOr none (Decoder.nullable Decoder.int32) levels values
      let (y1, values) ← Decoder.fieldOr none (Decoder.nullable Decoder.int32) levels values
      Decoder.lastField values
      return { x0, y0, x1, y1 })

def toJson (record : RoadRecord) : Value :=
  .object ([("x0", record.x0.toJson), ("y0", record.y0.toJson)] ++
    optionalMember "x1" Coord.toJson record.x1 ++ optionalMember "y1" Coord.toJson record.y1)

end RoadRecord

namespace BuildingRecord

structure Draft where
  x : Option Coord := none
  y : Option Coord := none
  w : Option Coord := none
  h : Option Coord := none

def Draft.known (key : String) (draft : Draft) : Option (Decoder Draft) :=
  match key with
  | "x" => some (Decoder.once key draft.x Decoder.int32 ({ draft with x := some · }))
  | "y" => some (Decoder.once key draft.y Decoder.int32 ({ draft with y := some · }))
  | "w" => some (Decoder.once key draft.w Decoder.int32 ({ draft with w := some · }))
  | "h" => some (Decoder.once key draft.h Decoder.int32 ({ draft with h := some · }))
  | _ => none

def decoder : Decoder BuildingRecord :=
  Decoder.record
    (fun levels values => do
      let draft ← Decoder.members Draft.known levels {} values
      return {
        x := ← Decoder.required "x" draft.x
        y := ← Decoder.required "y" draft.y
        w := ← Decoder.required "w" draft.w
        h := ← Decoder.required "h" draft.h })
    (fun levels values => do
      let (x, values) ← Decoder.field Decoder.int32 levels values
      let (y, values) ← Decoder.field Decoder.int32 levels values
      let (w, values) ← Decoder.field Decoder.int32 levels values
      let (h, values) ← Decoder.field Decoder.int32 levels values
      Decoder.lastField values
      return { x, y, w, h })

def toJson (record : BuildingRecord) : Value :=
  .object [("x", record.x.toJson), ("y", record.y.toJson), ("w", record.w.toJson),
    ("h", record.h.toJson)]

end BuildingRecord

namespace OfficeRecord

structure Draft where
  id : Option String := none
  x : Option Coord := none
  y : Option Coord := none
  offsetX : Option Coord := none
  offsetY : Option Coord := none

def Draft.known (key : String) (draft : Draft) : Option (Decoder Draft) :=
  match key with
  | "id" => some (Decoder.once key draft.id Decoder.string ({ draft with id := some · }))
  | "x" => some (Decoder.once key draft.x Decoder.int32 ({ draft with x := some · }))
  | "y" => some (Decoder.once key draft.y Decoder.int32 ({ draft with y := some · }))
  | "offsetX" =>
    some (Decoder.once key draft.offsetX Decoder.int32 ({ draft with offsetX := some · }))
  | "offsetY" =>
    some (Decoder.once key draft.offsetY Decoder.int32 ({ draft with offsetY := some · }))
  | _ => none

def decoder : Decoder OfficeRecord :=
  Decoder.record
    (fun levels values => do
      let draft ← Decoder.members Draft.known levels {} values
      return {
        id := ← Decoder.required "id" draft.id
        x := ← Decoder.required "x" draft.x
        y := ← Decoder.required "y" draft.y
        offsetX := ← Decoder.required "offsetX" draft.offsetX
        offsetY := ← Decoder.required "offsetY" draft.offsetY })
    (fun levels values => do
      let (id, values) ← Decoder.field Decoder.string levels values
      let (x, values) ← Decoder.field Decoder.int32 levels values
      let (y, values) ← Decoder.field Decoder.int32 levels values
      let (offsetX, values) ← Decoder.field Decoder.int32 levels values
      let (offsetY, values) ← Decoder.field Decoder.int32 levels values
      Decoder.lastField values
      return { id, x, y, offsetX, offsetY })

def toJson (record : OfficeRecord) : Value :=
  .object [("id", .string record.id), ("x", record.x.toJson), ("y", record.y.toJson),
    ("offsetX", record.offsetX.toJson), ("offsetY", record.offsetY.toJson)]

end OfficeRecord

namespace MapRecord

structure Draft where
  id : Option String := none
  name : Option String := none
  dogSpeed : Option (Option Float) := none
  roads : Option (List RoadRecord) := none
  buildings : Option (List BuildingRecord) := none
  offices : Option (List OfficeRecord) := none

def Draft.known (key : String) (draft : Draft) : Option (Decoder Draft) :=
  match key with
  | "id" => some (Decoder.once key draft.id Decoder.string ({ draft with id := some · }))
  | "name" => some (Decoder.once key draft.name Decoder.string ({ draft with name := some · }))
  | "dogSpeed" =>
    some (Decoder.once key draft.dogSpeed (Decoder.nullable Decoder.real)
      ({ draft with dogSpeed := some · }))
  | "roads" =>
    some (Decoder.once key draft.roads (Decoder.list RoadRecord.decoder)
      ({ draft with roads := some · }))
  | "buildings" =>
    some (Decoder.once key draft.buildings (Decoder.list BuildingRecord.decoder)
      ({ draft with buildings := some · }))
  | "offices" =>
    some (Decoder.once key draft.offices (Decoder.list OfficeRecord.decoder)
      ({ draft with offices := some · }))
  | _ => none

def decoder : Decoder MapRecord :=
  Decoder.record
    (fun levels values => do
      let draft ← Decoder.members Draft.known levels {} values
      return {
        id := ← Decoder.required "id" draft.id
        name := ← Decoder.required "name" draft.name
        dogSpeed := draft.dogSpeed.getD none
        roads := ← Decoder.required "roads" draft.roads
        buildings := draft.buildings.getD []
        offices := draft.offices.getD [] })
    (fun levels values => do
      let (id, values) ← Decoder.field Decoder.string levels values
      let (name, values) ← Decoder.field Decoder.string levels values
      let (dogSpeed, values) ←
        Decoder.fieldOr none (Decoder.nullable Decoder.real) levels values
      let (roads, values) ← Decoder.field (Decoder.list RoadRecord.decoder) levels values
      let (buildings, values) ←
        Decoder.fieldOr [] (Decoder.list BuildingRecord.decoder) levels values
      let (offices, values) ←
        Decoder.fieldOr [] (Decoder.list OfficeRecord.decoder) levels values
      Decoder.lastField values
      return { id, name, dogSpeed, roads, buildings, offices })

def toJson (record : MapRecord) : Value :=
  .object ([("id", .string record.id), ("name", .string record.name)] ++
    optionalMember "dogSpeed" .real record.dogSpeed ++
    [("roads", .array (record.roads.map (·.toJson))),
      ("buildings", .array (record.buildings.map (·.toJson))),
      ("offices", .array (record.offices.map (·.toJson)))])

end MapRecord

namespace Atlas

structure Draft where
  defaultDogSpeed : Option (Option Float) := none
  maps : Option (List MapRecord) := none

def Draft.known (key : String) (draft : Draft) : Option (Decoder Draft) :=
  match key with
  | "defaultDogSpeed" =>
    some (Decoder.once key draft.defaultDogSpeed (Decoder.nullable Decoder.real)
      ({ draft with defaultDogSpeed := some · }))
  | "maps" =>
    some (Decoder.once key draft.maps (Decoder.list MapRecord.decoder)
      ({ draft with maps := some · }))
  | _ => none

def decoder : Decoder Atlas :=
  Decoder.record
    (fun levels values => do
      let draft ← Decoder.members Draft.known levels {} values
      return {
        defaultDogSpeed := draft.defaultDogSpeed.getD none
        maps := ← Decoder.required "maps" draft.maps })
    (fun levels values => do
      let (defaultDogSpeed, values) ←
        Decoder.fieldOr none (Decoder.nullable Decoder.real) levels values
      let (maps, values) ← Decoder.field (Decoder.list MapRecord.decoder) levels values
      Decoder.lastField values
      return { defaultDogSpeed, maps })

def toJson (atlas : Atlas) : Value :=
  .object (optionalMember "defaultDogSpeed" .real atlas.defaultDogSpeed ++
    [("maps", .array (atlas.maps.map (·.toJson)))])

end Atlas

end StreetDogs
