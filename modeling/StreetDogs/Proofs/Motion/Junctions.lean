import StreetDogs.Junction
import Mathlib

/-!
# Rows of junctions

Every pair of roads is classified once, with the lower index first, and a contact
is entered in two rows at a time.  A row is therefore filled by all roads before
its own road, one after the other, and then by all roads behind it.  In the end
it holds the contacts of its road with all others, in the order of the list.
-/

namespace StreetDogs

namespace Road

theorem sharesEnd_comm (a b : Road) : a.sharesEnd b = b.sharesEnd a := by
  rw [sharesEnd, sharesEnd, Bool.eq_iff_iff]
  simp only [Bool.or_eq_true, beq_iff_eq]
  constructor
  · rintro (((h | h) | h) | h) <;> simp [h]
  · rintro (((h | h) | h) | h) <;> simp [h]

/-- Contact does not depend on which road is looked at first. -/
theorem contact_comm (a b : Road) : a.contact b = b.contact a := by
  rw [contact, contact, sharesEnd_comm b a, Bool.and_comm (b.spans a.fixed)]
  by_cases haxis : a.axis = b.axis
  · rw [if_pos haxis, if_pos haxis.symm]
  · rw [if_neg haxis, if_neg (Ne.symm haxis)]

end Road

namespace Junctions

def row (roads : List Road) (road : Road) (index : ℕ) : List Neighbour :=
  roads.zipIdx.filterMap fun (other, position) =>
    if position = index then none else (road.contact other).map (⟨position, ·⟩)

/-- What the row of the road `place` gains when the road at `index` is classified
against a later one. -/
def gain (place : ℕ) (road : Road) (index : ℕ) (later : Road × ℕ) : Option Neighbour :=
  if place = index then (road.contact later.1).map (⟨later.2, ·⟩)
  else if place = later.2 then (road.contact later.1).map (⟨index, ·⟩)
  else none

/-- What the row of the road `place` gains when all of the roads are classified. -/
def gains (place : ℕ) : List (Road × ℕ) → List Neighbour
  | [] => []
  | (road, index) :: later => later.filterMap (gain place road index) ++ gains place later

variable {road : Road} {index place : ℕ} {entries : List (Road × ℕ)}

theorem getElem?_enter (rows : List (List Neighbour)) {later : Road × ℕ} (hne : index ≠ later.2) :
    (enter road index rows later)[place]? =
      rows[place]?.map (· ++ (gain place road index later).toList) := by
  rw [enter, gain]
  cases road.contact later.1 with
  | none => simp
  | some contact =>
      simp only [List.getElem?_modify]
      by_cases hindex : place = index
      · subst hindex
        simp [hne.symm]
      · by_cases hlater : place = later.2
        · subst hlater
          simp [hne, Ne.symm hne]
        · simp [hindex, hlater, Ne.symm hindex, Ne.symm hlater]

theorem getElem?_foldl_enter (rows : List (List Neighbour))
    (hne : ∀ entry ∈ entries, index ≠ entry.2) :
    (entries.foldl (enter road index) rows)[place]? =
      rows[place]?.map (· ++ entries.filterMap (gain place road index)) := by
  induction entries generalizing rows with
  | nil => simp
  | cons entry entries ih =>
      rw [List.forall_mem_cons] at hne
      rw [List.foldl_cons, ih _ hne.2, getElem?_enter rows hne.1, Option.map_map]
      congr 1
      funext before
      cases hgain : gain place road index entry <;> simp [hgain]

theorem getElem?_enterAll (rows : List (List Neighbour))
    (hdistinct : entries.Pairwise (·.2 ≠ ·.2)) :
    (enterAll rows entries)[place]? = rows[place]?.map (· ++ gains place entries) := by
  induction entries generalizing rows with
  | nil => simp [enterAll, gains]
  | cons entry later ih =>
      obtain ⟨road, index⟩ := entry
      rw [List.pairwise_cons] at hdistinct
      rw [enterAll, ih _ hdistinct.2, getElem?_foldl_enter rows hdistinct.1, Option.map_map, gains]
      congr 1
      funext before
      exact List.append_assoc _ _ _

/-- A row gains nothing from roads that do not include its own. -/
theorem gains_eq_nil (hplace : ∀ entry ∈ entries, place ≠ entry.2) : gains place entries = [] := by
  induction entries with
  | nil => rfl
  | cons entry later ih =>
      obtain ⟨other, index⟩ := entry
      rw [List.forall_mem_cons] at hplace
      rw [gains, ih hplace.2, List.append_nil, List.filterMap_eq_nil_iff]
      intro entry hentry
      rw [gain, if_neg hplace.1, if_neg (hplace.2 entry hentry)]

/-- A row gains at most one entry when a road before its own is classified. -/
theorem filterMap_gain_of_mem {first : Road} (hplace : place ≠ index)
    (hdistinct : entries.Pairwise (·.2 ≠ ·.2)) (hmem : (road, place) ∈ entries) :
    entries.filterMap (gain place first index) =
      ((first.contact road).map (⟨index, ·⟩)).toList := by
  obtain ⟨before, behind, rfl⟩ := List.append_of_mem hmem
  rw [List.pairwise_append, List.pairwise_cons] at hdistinct
  have hnone {entry : Road × ℕ} (hentry : place ≠ entry.2) :
      gain place first index entry = none := by
    rw [gain, if_neg hplace, if_neg hentry]
  have hbefore : before.filterMap (gain place first index) = [] :=
    List.filterMap_eq_nil_iff.mpr fun entry hentry =>
      hnone (hdistinct.2.2 entry hentry _ List.mem_cons_self).symm
  have hbehind : behind.filterMap (gain place first index) = [] :=
    List.filterMap_eq_nil_iff.mpr fun entry hentry => hnone (hdistinct.2.1.1 entry hentry)
  have hself : gain place first index (road, place) =
      (first.contact road).map (⟨index, ·⟩) := by
    rw [gain, if_neg hplace, if_pos rfl]
  rw [List.filterMap_append, List.filterMap_cons, hbefore, hbehind, hself]
  cases first.contact road <;> rfl

/-- A row gains the contacts of its road with all others: those with the roads
before it one by one, and those with the roads behind it at once. -/
theorem gains_eq (hdistinct : entries.Pairwise (·.2 ≠ ·.2)) (hmem : (road, place) ∈ entries) :
    gains place entries = entries.filterMap fun (other, position) =>
      if position = place then none else (road.contact other).map (⟨position, ·⟩) := by
  induction entries with
  | nil => cases hmem
  | cons entry later ih =>
      obtain ⟨first, index⟩ := entry
      rw [List.pairwise_cons] at hdistinct
      rw [gains, List.filterMap_cons]
      rcases List.mem_cons.mp hmem with heq | hlater
      · obtain ⟨rfl, rfl⟩ := Prod.mk.inj heq
        rw [gains_eq_nil hdistinct.1, List.append_nil]
        simp only [if_true]
        apply List.filterMap_congr
        intro entry hentry
        rw [gain, if_pos rfl, if_neg (hdistinct.1 entry hentry).symm]
      · have hplace : place ≠ index := (hdistinct.1 _ hlater).symm
        rw [ih hdistinct.2 hlater, filterMap_gain_of_mem hplace hdistinct.2 hlater,
          first.contact_comm road]
        simp only [if_neg hplace.symm]
        cases road.contact first <;> rfl

theorem pairwise_zipIdx (roads : List Road) : roads.zipIdx.Pairwise (·.2 < ·.2) := by
  rw [← List.pairwise_map (f := Prod.snd), List.zipIdx_map_snd]
  exact List.pairwise_lt_range'

theorem distinct_zipIdx (roads : List Road) : roads.zipIdx.Pairwise (·.2 ≠ ·.2) :=
  (pairwise_zipIdx roads).imp fun hlt => Nat.ne_of_lt hlt

/-- There is one row for every road. -/
theorem size_ofRoads (roads : List Road) : (ofRoads roads).size = roads.length := by
  have hbound (place : ℕ) : (ofRoads roads).size ≤ place ↔ roads.length ≤ place := by
    rw [size, ofRoads, ← List.getElem?_eq_none_iff,
      getElem?_enterAll _ (distinct_zipIdx roads), Option.map_eq_none_iff,
      List.getElem?_eq_none_iff, List.length_replicate]
  exact Nat.le_antisymm ((hbound _).mpr le_rfl) ((hbound _).mp le_rfl)

/-- The row of a road holds its contacts with all others; a road that is not in
the list has none. -/
theorem neighbours_ofRoads (roads : List Road) (index : ℕ) :
    (ofRoads roads).neighbours index = (roads[index]?.map (row roads · index)).getD [] := by
  have hdistinct := distinct_zipIdx roads
  rw [neighbours, ofRoads, getElem?_enterAll _ hdistinct]
  cases hroad : roads[index]? with
  | none =>
      rw [List.getElem?_eq_none (by simpa using List.getElem?_eq_none_iff.mp hroad)]
      rfl
  | some road =>
      obtain ⟨hlt, -⟩ := List.getElem?_eq_some_iff.mp hroad
      have hmem : (road, index) ∈ roads.zipIdx := List.mem_zipIdx_iff_getElem?.mpr hroad
      rw [List.getElem?_replicate, if_pos hlt, gains_eq hdistinct hmem]
      rfl

theorem pairwise_row (roads : List Road) (road : Road) (index : ℕ) :
    (row roads road index).Pairwise (·.road < ·.road) := by
  rw [row, List.pairwise_filterMap]
  refine (pairwise_zipIdx roads).imp ?_
  rintro ⟨first, position⟩ ⟨second, position'⟩ hlt entry hentry entry' hentry'
  dsimp only at hlt hentry hentry'
  split_ifs at hentry hentry'
  obtain ⟨contact, -, rfl⟩ := Option.map_eq_some_iff.mp hentry
  obtain ⟨contact', -, rfl⟩ := Option.map_eq_some_iff.mp hentry'
  exact hlt

/-- The neighbours of a road stand in ascending order. -/
theorem pairwise_neighbours (roads : List Road) (index : ℕ) :
    ((ofRoads roads).neighbours index).Pairwise (·.road < ·.road) := by
  rw [neighbours_ofRoads]
  cases roads[index]? with
  | none => exact List.Pairwise.nil
  | some road => exact pairwise_row roads road index

/-- The neighbours in one kind of contact stand in ascending order. -/
theorem pairwise_touching (roads : List Road) (index : ℕ) (contact : Contact) :
    ((ofRoads roads).touching index contact).Pairwise (· < ·) := by
  rw [touching, List.pairwise_map]
  exact (pairwise_neighbours roads index).filter _

end Junctions

end StreetDogs
