import StreetDogs.Road

/-!
# Junctions

How the roads of a map touch each other.  The index lists, for every road, the
roads in contact with it in ascending order, and is read by every dog that
drives on the map.
-/

namespace StreetDogs

inductive Contact where
  /-- Along the same axis with a common end point. -/
  | adjacent
  /-- Along different axes with a common point. -/
  | crossed
deriving DecidableEq, Repr

/-- The contact of two roads, if they have any: roads along the same axis have
to share an end point, roads along different axes have to reach each other's
centre line. -/
def Road.contact (a b : Road) : Option Contact :=
  if a.axis = b.axis then
    if a.sharesEnd b then some .adjacent else none
  else if a.spans b.fixed && b.spans a.fixed then some .crossed else none

structure Neighbour where
  road : Nat
  contact : Contact
deriving DecidableEq, Repr

/-- The neighbours of every road of a map. -/
structure Junctions where
  rows : List (List Neighbour)
deriving DecidableEq, Repr

namespace Junctions

/-- Classifies the road that stands at `index` against a later one.  A contact is
entered in the rows of both, behind the neighbours they have so far. -/
def enter (road : Road) (index : Nat) (rows : List (List Neighbour)) (later : Road × Nat) :
    List (List Neighbour) :=
  match road.contact later.1 with
  | none => rows
  | some contact =>
    (rows.modify index (· ++ [⟨later.2, contact⟩])).modify later.2 (· ++ [⟨index, contact⟩])

/-- Classifies each of the roads, which are given with their indices, against all
that come after it. -/
def enterAll (rows : List (List Neighbour)) : List (Road × Nat) → List (List Neighbour)
  | [] => rows
  | (road, index) :: later => enterAll (later.foldl (enter road index) rows) later

/-- Classifies every unordered pair of roads once. -/
def ofRoads (roads : List Road) : Junctions :=
  ⟨enterAll (List.replicate roads.length []) roads.zipIdx⟩

def size (junctions : Junctions) : Nat := junctions.rows.length

def isEmpty (junctions : Junctions) : Bool := junctions.rows.isEmpty

/-- All neighbours of a road; an unknown road has none. -/
def neighbours (junctions : Junctions) (road : Nat) : List Neighbour :=
  junctions.rows[road]?.getD []

def contact? (junctions : Junctions) (a b : Nat) : Option Contact :=
  ((junctions.neighbours a).find? (·.road == b)).map (·.contact)

/-- The neighbours in one kind of contact, in ascending order. -/
def touching (junctions : Junctions) (road : Nat) (contact : Contact) : List Nat :=
  ((junctions.neighbours road).filter (·.contact == contact)).map (·.road)

def crossings (junctions : Junctions) (road : Nat) : List Nat := junctions.touching road .crossed

def adjacent (junctions : Junctions) (road : Nat) : List Nat := junctions.touching road .adjacent

end Junctions

end StreetDogs
