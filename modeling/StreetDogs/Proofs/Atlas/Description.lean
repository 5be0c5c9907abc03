import StreetDogs.Atlas.Load
import Mathlib.Data.List.Forall2
import Mathlib.Tactic.SplitIfs

/-!
# Descriptions and maps

A description makes exactly the map that has its contents, so a map comes back
from its description, and a description from its map up to the second end of a
road that declares two.
-/

namespace StreetDogs

/-- The road has the declared start, and the end that the description gives it. -/
inductive RoadRecord.Describes (record : RoadRecord) (road : Road) : Prop where
  /-- A road with `x1` is horizontal, whether it has `y1` or not. -/
  | horizontal (x1 : Coord) (end_eq : record.x1 = some x1) (axis_eq : road.axis = .horizontal)
    (start_eq : road.start = ⟨record.x0, record.y0⟩) (finish_eq : road.finish = ⟨x1, record.y0⟩)
  | vertical (y1 : Coord) (no_x1 : record.x1 = none) (end_eq : record.y1 = some y1)
    (axis_eq : road.axis = .vertical) (start_eq : road.start = ⟨record.x0, record.y0⟩)
    (finish_eq : road.finish = ⟨record.x0, y1⟩)

structure BuildingRecord.Describes (record : BuildingRecord) (building : Building) : Prop where
  position_eq : building.bounds.position = ⟨record.x, record.y⟩
  size_eq : building.bounds.size = ⟨record.w, record.h⟩

structure OfficeRecord.Describes (record : OfficeRecord) (office : Office) : Prop where
  id_eq : office.id = record.id
  position_eq : office.position = ⟨record.x, record.y⟩
  offset_eq : office.offset = ⟨record.offsetX, record.offsetY⟩

/-- The map has the contents of the description, in the order of the description. -/
structure MapRecord.Describes (record : MapRecord) (map : StreetMap) : Prop where
  id_eq : map.id = record.id
  name_eq : map.name = record.name
  roads : List.Forall₂ RoadRecord.Describes record.roads map.roads
  buildings : List.Forall₂ BuildingRecord.Describes record.buildings map.buildings
  offices : List.Forall₂ OfficeRecord.Describes record.offices map.offices
  dogSpeed_eq : map.dogSpeed = record.dogSpeed

namespace RoadRecord

variable {record : RoadRecord} {road : Road}

theorem toRoad?_eq_some_iff : record.toRoad? = some road ↔ record.Describes road := by
  obtain ⟨x0, y0, x1, y1⟩ := record
  obtain ⟨axis, start, stop⟩ := road
  constructor
  · intro h
    rw [toRoad?] at h
    cases x1 with
    | some x1 =>
        obtain ⟨rfl, rfl, rfl⟩ := Road.mk.inj (Option.some.inj h)
        exact .horizontal x1 rfl rfl rfl rfl
    | none =>
        cases y1 with
        | none => cases h
        | some y1 =>
            obtain ⟨rfl, rfl, rfl⟩ := Road.mk.inj (Option.some.inj h)
            exact .vertical y1 rfl rfl rfl rfl rfl
  · intro h
    cases h with
    | horizontal x1 hend haxis hstart hfinish =>
        obtain rfl := haxis
        obtain rfl := hstart
        obtain rfl := hend
        obtain rfl : stop = x1 := (GridPoint.mk.inj hfinish).1
        rfl
    | vertical y1 hnone hend haxis hstart hfinish =>
        obtain rfl := haxis
        obtain rfl := hstart
        obtain rfl := hnone
        obtain rfl := hend
        obtain rfl : stop = y1 := (GridPoint.mk.inj hfinish).2
        rfl

theorem describes_ofRoad (road : Road) : (ofRoad road).Describes road := by
  obtain ⟨axis, start, stop⟩ := road
  cases axis with
  | horizontal => exact .horizontal stop rfl rfl rfl rfl
  | vertical => exact .vertical stop rfl rfl rfl rfl rfl

/-- The description without the end that is not used. -/
def tidy (record : RoadRecord) : RoadRecord :=
  { record with y1 := if record.x1.isSome then none else record.y1 }

theorem Describes.ofRoad_eq (h : record.Describes road) : ofRoad road = record.tidy := by
  rw [← toRoad?_eq_some_iff] at h
  obtain ⟨x0, y0, x1, y1⟩ := record
  rw [toRoad?] at h
  cases x1 with
  | some x1 =>
      rw [← Option.some.inj h]
      rfl
  | none =>
      cases y1 with
      | none => cases h
      | some y1 =>
          rw [← Option.some.inj h]
          rfl

end RoadRecord

namespace BuildingRecord

variable {record : BuildingRecord} {building : Building}

theorem describes_iff : record.Describes building ↔ record.toBuilding = building := by
  constructor
  · intro h
    obtain ⟨⟨position, size⟩⟩ := building
    obtain ⟨rfl, rfl⟩ := h
    rfl
  · rintro rfl
    exact ⟨rfl, rfl⟩

theorem describes_ofBuilding (building : Building) : (ofBuilding building).Describes building :=
  describes_iff.mpr rfl

theorem Describes.ofBuilding_eq (h : record.Describes building) : ofBuilding building = record := by
  rw [← describes_iff.mp h]
  rfl

end BuildingRecord

namespace OfficeRecord

variable {record : OfficeRecord} {office : Office}

theorem describes_iff : record.Describes office ↔ record.toOffice = office := by
  constructor
  · intro h
    obtain ⟨id, position, offset⟩ := office
    obtain ⟨rfl, rfl, rfl⟩ := h
    rfl
  · rintro rfl
    exact ⟨rfl, rfl, rfl⟩

theorem describes_ofOffice (office : Office) : (ofOffice office).Describes office :=
  describes_iff.mpr rfl

theorem Describes.ofOffice_eq (h : record.Describes office) : ofOffice office = record := by
  rw [← describes_iff.mp h]
  rfl

end OfficeRecord

/-- A list is related to its image when the relation is the graph of the function. -/
theorem forall₂_iff_map_eq {α β : Type} {r : α → β → Prop} {f : α → β}
    (h : ∀ a b, r a b ↔ f a = b) {as : List α} {bs : List β} :
    List.Forall₂ r as bs ↔ as.map f = bs := by
  have hgraph : r = fun a b => f a = b := by
    funext a b
    exact propext (h a b)
  rw [hgraph, ← List.forall₂_map_left_iff, List.forall₂_eq_eq_eq]

/-- A list is related to its image under a function that undoes each relation. -/
theorem map_eq_of_forall₂ {α β γ : Type} {r : α → β → Prop} {f : β → γ} {g : α → γ}
    (h : ∀ a b, r a b → f b = g a) {as : List α} {bs : List β} (hall : List.Forall₂ r as bs) :
    bs.map f = as.map g := by
  induction hall with
  | nil => rfl
  | cons hab _ ih => rw [List.map_cons, List.map_cons, h _ _ hab, ih]

/-- A map is built exactly from its own contents. -/
theorem StreetMap.new_eq_ok_iff {id : MapId} {name : String} {roads : List Road}
    {buildings : List Building} {offices : List Office} {dogSpeed : Option Float}
    {map : StreetMap} :
    StreetMap.new id name roads buildings offices dogSpeed = .ok map ↔
      map.id = id ∧ map.name = name ∧ map.roads = roads ∧ map.buildings = buildings ∧
        map.offices = offices ∧ map.dogSpeed = dogSpeed := by
  constructor
  · intro h
    rw [new] at h
    split at h
    · cases h
    · split at h
      · cases h
      · split at h
        · rw [← Except.ok.inj h]
          exact ⟨rfl, rfl, rfl, rfl, rfl, rfl⟩
        · split at h
          · rw [← Except.ok.inj h]
            exact ⟨rfl, rfl, rfl, rfl, rfl, rfl⟩
          · cases h
  · rintro ⟨rfl, rfl, rfl, rfl, rfl, rfl⟩
    obtain ⟨id, name, roads, buildings, offices, dogSpeed, junctions, hroads, hoffices, hspeed,
      rfl⟩ := map
    rw [new, dif_neg hroads]
    split
    · next office hrepeat =>
        rw [(firstRepeat?_nil_eq_none_iff _).mpr hoffices] at hrepeat
        cases hrepeat
    · cases dogSpeed with
      | none => rfl
      | some speed => exact dif_pos (hspeed speed rfl)

namespace MapRecord

variable {record : MapRecord} {map : StreetMap}

theorem toRoads_eq_ok_iff {index : ℕ} {records : List RoadRecord} {roads : List Road} :
    toRoads index records = .ok roads ↔ List.Forall₂ RoadRecord.Describes records roads := by
  induction records generalizing index roads with
  | nil =>
      rw [toRoads, List.forall₂_nil_left_iff, Except.ok.injEq, eq_comm]
  | cons record records ih =>
      rw [toRoads, List.forall₂_cons_left_iff]
      cases hroad : record.toRoad? with
      | none =>
          refine iff_of_false nofun ?_
          rintro ⟨road, -, hdescribes, -⟩
          rw [RoadRecord.toRoad?_eq_some_iff.mpr hdescribes] at hroad
          cases hroad
      | some road =>
          have hfound := RoadRecord.toRoad?_eq_some_iff.mp hroad
          cases hroads : toRoads (index + 1) records with
          | error found =>
              refine iff_of_false nofun ?_
              rintro ⟨_, rest, -, hrest, -⟩
              rw [ih.mpr hrest] at hroads
              cases hroads
          | ok rest =>
              constructor
              · intro h
                obtain rfl := Except.ok.inj h
                exact ⟨road, rest, hfound, ih.mp hroads, rfl⟩
              · rintro ⟨other, others, hother, hothers, rfl⟩
                rw [RoadRecord.toRoad?_eq_some_iff.mpr hother, Option.some_inj] at hroad
                rw [ih.mpr hothers, Except.ok.injEq] at hroads
                rw [hroad, hroads]
                rfl

theorem mapError_eq_ok_iff {α ε ε' : Type} {outcome : Except ε α} {change : ε → ε'}
    {result : α} : outcome.mapError change = .ok result ↔ outcome = .ok result := by
  cases outcome with
  | error error => exact iff_of_false nofun nofun
  | ok found =>
      exact ⟨fun h => congrArg _ (Except.ok.inj h), fun h => congrArg _ (Except.ok.inj h)⟩

/-- A description makes the map that has its contents, and no other. -/
theorem toMap_eq_ok_iff : record.toMap = .ok map ↔ record.Describes map := by
  have hfields : record.Describes map ↔ map.id = record.id ∧ map.name = record.name ∧
      toRoads 0 record.roads = .ok map.roads ∧
      record.buildings.map (·.toBuilding) = map.buildings ∧
      record.offices.map (·.toOffice) = map.offices ∧ map.dogSpeed = record.dogSpeed := by
    have hbuildings : List.Forall₂ BuildingRecord.Describes record.buildings map.buildings ↔
        record.buildings.map (·.toBuilding) = map.buildings :=
      forall₂_iff_map_eq (f := BuildingRecord.toBuilding) fun _ _ => BuildingRecord.describes_iff
    have hoffices : List.Forall₂ OfficeRecord.Describes record.offices map.offices ↔
        record.offices.map (·.toOffice) = map.offices :=
      forall₂_iff_map_eq (f := OfficeRecord.toOffice) fun _ _ => OfficeRecord.describes_iff
    rw [toRoads_eq_ok_iff, ← hbuildings, ← hoffices]
    exact ⟨fun h => ⟨h.id_eq, h.name_eq, h.roads, h.buildings, h.offices, h.dogSpeed_eq⟩,
      fun ⟨hid, hname, hroads, hbuildings, hoffices, hspeed⟩ =>
        ⟨hid, hname, hroads, hbuildings, hoffices, hspeed⟩⟩
  rw [hfields, toMap]
  cases toRoads 0 record.roads with
  | error index => exact iff_of_false nofun fun h => nomatch h.2.2.1
  | ok roads =>
      change Except.mapError _ (StreetMap.new _ _ roads _ _ _) = _ ↔ _
      rw [mapError_eq_ok_iff, StreetMap.new_eq_ok_iff, Except.ok.injEq]
      simp only [eq_comm]

/-- The description of a map describes it. -/
theorem describes_ofMap (map : StreetMap) : (ofMap map).Describes map where
  id_eq := rfl
  name_eq := rfl
  roads := List.forall₂_map_left_iff.mpr
    (List.forall₂_same.mpr fun road _ => RoadRecord.describes_ofRoad road)
  buildings := List.forall₂_map_left_iff.mpr
    (List.forall₂_same.mpr fun building _ => BuildingRecord.describes_ofBuilding building)
  offices := List.forall₂_map_left_iff.mpr
    (List.forall₂_same.mpr fun office _ => OfficeRecord.describes_ofOffice office)
  dogSpeed_eq := rfl

def tidy (record : MapRecord) : MapRecord := { record with roads := record.roads.map (·.tidy) }

/-- A map tells its description, up to the ends that are not used. -/
theorem Describes.ofMap_eq (h : record.Describes map) : ofMap map = record.tidy := by
  have hroads : map.roads.map .ofRoad = record.roads.map (·.tidy) :=
    map_eq_of_forall₂ (fun _ _ hroad => hroad.ofRoad_eq) h.roads
  have hbuildings : map.buildings.map .ofBuilding = record.buildings.map fun record => record :=
    map_eq_of_forall₂ (fun _ _ hbuilding => hbuilding.ofBuilding_eq) h.buildings
  have hoffices : map.offices.map .ofOffice = record.offices.map fun record => record :=
    map_eq_of_forall₂ (fun _ _ hoffice => hoffice.ofOffice_eq) h.offices
  rw [ofMap, tidy, h.id_eq, h.name_eq, h.dogSpeed_eq, hroads, hbuildings, hoffices, List.map_id',
    List.map_id']

/-- Every map is built from its own contents, and comes back from its description
as it is, with its junctions.  A description that makes a map comes back from it,
except that a road with both ends loses the one that is not used, and what comes
back makes the same map. -/
theorem toMap_ofMap :
    (∀ map : StreetMap,
      StreetMap.new map.id map.name map.roads map.buildings map.offices map.dogSpeed = .ok map ∧
        (ofMap map).toMap = .ok map) ∧
    ∀ (record : MapRecord) (map : StreetMap), record.toMap = .ok map →
      ofMap map = record.tidy ∧ (ofMap map).toMap = .ok map := by
  have hback (map : StreetMap) : (ofMap map).toMap = .ok map :=
    toMap_eq_ok_iff.mpr (describes_ofMap map)
  refine ⟨fun map => ⟨?_, hback map⟩, fun record map h => ⟨?_, hback map⟩⟩
  · exact StreetMap.new_eq_ok_iff.mpr ⟨rfl, rfl, rfl, rfl, rfl, rfl⟩
  · exact (toMap_eq_ok_iff.mp h).ofMap_eq

def crooked : MapRecord where
  id := "crooked"
  name := "Crooked"
  roads := [⟨0, 0, some 10, some 7⟩, ⟨10, 0, none, some (-5)⟩, ⟨3, 0, some 3, none⟩]
  buildings := [⟨1, 2, 3, 4⟩]
  offices := [⟨"a", 5, 0, -1, 1⟩, ⟨"b", 5, 0, 0, 0⟩]
  dogSpeed := some 2.5

theorem toMap_ofMap_crooked :
    ∃ map, crooked.toMap = .ok map ∧ ofMap map = { crooked with
        roads := [⟨0, 0, some 10, none⟩, ⟨10, 0, none, some (-5)⟩, ⟨3, 0, some 3, none⟩] } ∧
      (ofMap map).toMap = .ok map := by
  obtain ⟨map, hmap⟩ : ∃ map, crooked.toMap = .ok map := ⟨_, rfl⟩
  obtain ⟨-, hback⟩ := toMap_ofMap
  obtain ⟨hrecord, hagain⟩ := hback crooked map hmap
  exact ⟨map, hmap, hrecord, hagain⟩

end MapRecord

end StreetDogs
