import StreetDogs.StreetMap

/-!
# Map descriptions

The contents of a document of maps before any rule is checked, and the passage
between a description and a map.  A road is horizontal when it has `x1` and
vertical when it has only `y1`.
-/

namespace StreetDogs

structure RoadRecord where
  x0 : Coord
  y0 : Coord
  x1 : Option Coord := none
  y1 : Option Coord := none
deriving DecidableEq, Repr

structure BuildingRecord where
  x : Coord
  y : Coord
  w : Coord
  h : Coord
deriving DecidableEq, Repr

structure OfficeRecord where
  id : String
  x : Coord
  y : Coord
  offsetX : Coord
  offsetY : Coord
deriving DecidableEq, Repr

structure MapRecord where
  id : String
  name : String
  dogSpeed : Option Float := none
  roads : List RoadRecord
  buildings : List BuildingRecord := []
  offices : List OfficeRecord := []
deriving DecidableEq, Repr

/-- A document of maps. -/
structure Atlas where
  defaultDogSpeed : Option Float := none
  maps : List MapRecord
deriving DecidableEq, Repr

/-- What keeps a file from being read. -/
inductive FileError where
  | notFound
  | isDirectory
  | notText
deriving DecidableEq, Repr

end StreetDogs
