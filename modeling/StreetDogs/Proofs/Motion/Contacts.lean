import StreetDogs.StreetMap
import StreetDogs.Proofs.Motion.Junctions

/-!
# Contacts of roads

The entries of the junctions are exactly the contacts between different roads
of the map, so every road they name exists.  Adjacent roads lie on one line;
crossing roads lie on different axes and span each other's centre line.
-/

namespace StreetDogs

namespace Axis

/-- Along a road its other end point lies where the road stops. -/
theorem coord_finish (road : Road) : road.axis.coord road.finish = road.stop := by
  obtain ⟨axis, start, stop⟩ := road
  cases axis <;> rfl

/-- Both ends of a road have the same coordinate across it. -/
theorem perpendicular_coord_finish (road : Road) :
    road.axis.perpendicular.coord road.finish = road.fixed := by
  obtain ⟨axis, start, stop⟩ := road
  cases axis <;> rfl

end Axis

namespace Road

variable {a b : Road}

theorem contact_eq_adjacent_iff :
    a.contact b = some .adjacent ↔ a.axis = b.axis ∧ a.sharesEnd b = true := by
  rw [contact]
  split_ifs with haxis hends hspans <;> simp [*]

theorem contact_eq_crossed_iff :
    a.contact b = some .crossed ↔
      a.axis ≠ b.axis ∧ a.spans b.fixed = true ∧ b.spans a.fixed = true := by
  rw [contact]
  split_ifs with haxis hends hspans <;> simp_all

theorem spans_iff (road : Road) (c : Coord) :
    road.spans c = true ↔ road.low ≤ c ∧ c ≤ road.high := by
  rw [spans, Bool.and_eq_true, decide_eq_true_iff, decide_eq_true_iff]

/-- Adjacent roads lie on the same line. -/
theorem axis_fixed_eq_of_adjacent (h : a.contact b = some .adjacent) :
    b.axis = a.axis ∧ b.fixed = a.fixed := by
  obtain ⟨haxis, hends⟩ := contact_eq_adjacent_iff.mp h
  refine ⟨haxis.symm, ?_⟩
  have hcoord (p : GridPoint) : a.axis.perpendicular.coord p = b.axis.perpendicular.coord p := by
    rw [haxis]
  have hfinish := Axis.perpendicular_coord_finish a
  have hfinish' := Axis.perpendicular_coord_finish b
  simp only [sharesEnd, Bool.or_eq_true, beq_iff_eq] at hends
  obtain ((hpoint | hpoint) | hpoint) | hpoint := hends
  · rw [fixed, fixed, hcoord, hpoint]
  · rw [fixed, fixed, hcoord, hpoint]
    exact hfinish'.symm
  · rw [← hfinish, fixed, hcoord, hpoint]
  · rw [← hfinish, ← hfinish', hcoord, hpoint]

end Road

namespace Junctions

theorem mem_neighbours_ofRoads_iff {roads : List Road} {index : ℕ} {neighbour : Neighbour} :
    neighbour ∈ (ofRoads roads).neighbours index ↔
      neighbour.road ≠ index ∧ ∃ road other, roads[index]? = some road ∧
        roads[neighbour.road]? = some other ∧ road.contact other = some neighbour.contact := by
  rw [neighbours_ofRoads]
  cases hroad : roads[index]? with
  | none => simp
  | some road =>
      simp only [Option.map_some, Option.getD_some, row, List.mem_filterMap]
      constructor
      · rintro ⟨⟨other, position⟩, hmem, hcontact⟩
        have hposition := List.mem_zipIdx_iff_getElem?.mp hmem
        dsimp only at hcontact hposition
        split_ifs at hcontact with hindex
        obtain ⟨contact, hsome, rfl⟩ := Option.map_eq_some_iff.mp hcontact
        exact ⟨hindex, road, other, rfl, hposition, hsome⟩
      · rintro ⟨hne, _, other, hsame, hother, hcontact⟩
        obtain rfl := Option.some.inj hsame
        refine ⟨(other, neighbour.road), List.mem_zipIdx_iff_getElem?.mpr hother, ?_⟩
        rw [if_neg hne, hcontact]
        rfl

theorem mem_touching_iff {junctions : Junctions} {index other : ℕ} {contact : Contact} :
    other ∈ junctions.touching index contact ↔
      ⟨other, contact⟩ ∈ junctions.neighbours index := by
  simp only [touching, List.mem_map, List.mem_filter, beq_iff_eq]
  constructor
  · rintro ⟨⟨_, _⟩, ⟨hmem, rfl⟩, rfl⟩
    exact hmem
  · intro hmem
    exact ⟨_, ⟨hmem, rfl⟩, rfl⟩

end Junctions

namespace StreetMap

/-- The road `other` is entered as a neighbour of the road `index`. -/
def Touches (map : StreetMap) (index other : ℕ) : Prop :=
  ∃ contact, other ∈ map.junctions.touching index contact

/-- A way over neighbouring roads, with all roads on it. -/
inductive Way (map : StreetMap) : ℕ → ℕ → List ℕ → Prop where
  | stay (index : ℕ) : Way map index index [index]
  | step {index other last : ℕ} {roads : List ℕ} (touches : map.Touches index other)
      (rest : Way map other last roads) : Way map index last (index :: roads)

variable {map : StreetMap} {index other : ℕ} {contact : Contact}

theorem mem_touching_iff :
    other ∈ map.junctions.touching index contact ↔
      other ≠ index ∧ ∃ road next, map.road? index = some road ∧
        map.road? other = some next ∧ road.contact next = some contact := by
  rw [map.junctions_eq, Junctions.mem_touching_iff, Junctions.mem_neighbours_ofRoads_iff]
  rfl

/-- A neighbour found in the junctions exists, has the contact it was looked up
by, and is related as asked. -/
theorem find?_touching_eq_some {related : Road → Bool}
    (h : (map.junctions.touching index contact).find?
      (fun position => (map.road? position).any related) = some other) :
    map.Touches index other ∧ ∃ road next, map.road? index = some road ∧
      map.road? other = some next ∧ road.contact next = some contact ∧ related next = true := by
  have hmem := List.mem_of_find?_eq_some h
  have hrelated := List.find?_some h
  obtain ⟨-, road, next, hroad, hnext, hcontact⟩ := mem_touching_iff.mp hmem
  rw [hnext, Option.any_some] at hrelated
  exact ⟨⟨contact, hmem⟩, road, next, hroad, hnext, hcontact, hrelated⟩

theorem usable_of_mem_none : ∀ speed ∈ (none : Option Float), usableSpeed speed = true :=
  nofun

/-- Two roads on one line and a road across the second one. -/
def threeRoads : StreetMap where
  id := "town"
  name := "Town"
  roads := [.horizontal ⟨0, 0⟩ 10, .horizontal ⟨10, 0⟩ 20, .vertical ⟨15, 0⟩ 30]
  buildings := []
  offices := []
  dogSpeed := none
  roads_ne_nil := List.cons_ne_nil _ _
  offices_nodup := List.nodup_nil
  dogSpeed_usable := usable_of_mem_none

end StreetMap

end StreetDogs
