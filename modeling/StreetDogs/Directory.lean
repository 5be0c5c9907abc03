import StreetDogs.StreetMap

/-!
# Directories

Places of maps and of sessions by the identifier of the map.
-/

namespace StreetDogs

/-- Map identifiers with a place each, the latest entry first. -/
structure Directory where
  entries : List (MapId × Nat) := []
deriving DecidableEq, Repr

namespace Directory

def empty : Directory := {}

def place? (directory : Directory) (id : MapId) : Option Nat := directory.entries.lookup id

def insert (directory : Directory) (id : MapId) (place : Nat) : Directory :=
  ⟨(id, place) :: directory.entries⟩

/-- The directory of a list of identifiers, or the first identifier that
repeats an earlier one. -/
def ofIds (ids : List MapId) : Except MapId Directory :=
  match firstRepeat? [] ids with
  | some id => .error id
  | none => .ok (ids.zipIdx.foldl (fun directory (id, place) => directory.insert id place) empty)

end Directory

end StreetDogs
