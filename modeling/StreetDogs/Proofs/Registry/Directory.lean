import StreetDogs.Directory
import Mathlib.Data.List.Basic

/-!
# Directories look up the latest entry

An entry answers for its own identifier and for nothing else, and the directory
of a list of distinct identifiers gives each of them its place in the list.
-/

namespace StreetDogs.Directory

@[simp]
theorem place?_empty (id : MapId) : empty.place? id = none := rfl

theorem place?_insert (directory : Directory) (id other : MapId) (place : ℕ) :
    (directory.insert id place).place? other =
      if other = id then some place else directory.place? other := by
  unfold place? insert
  rw [List.lookup_cons]
  by_cases h : other = id
  · rw [if_pos h, h, beq_self_eq_true]
  · rw [if_neg h, beq_false_of_ne h]

private theorem place?_foldl (ids : List MapId) (hnodup : ids.Nodup) (first : ℕ)
    (directory : Directory) (id : MapId) (place : ℕ) :
    ((ids.zipIdx first).foldl (fun directory (id, place) => directory.insert id place)
        directory).place? id = some place ↔
      (∃ offset, ids[offset]? = some id ∧ place = first + offset) ∨
        id ∉ ids ∧ directory.place? id = some place := by
  induction ids generalizing first directory with
  | nil => simp
  | cons head tail ih =>
      rw [List.nodup_cons] at hnodup
      rw [List.zipIdx_cons, List.foldl_cons, ih hnodup.2, place?_insert]
      constructor
      · rintro (⟨offset, hoffset, rfl⟩ | ⟨hid, hplace⟩)
        · exact Or.inl ⟨offset + 1, hoffset, by omega⟩
        · split_ifs at hplace with hhead
          · exact Or.inl ⟨0, by rw [hhead]; rfl, (Option.some.inj hplace).symm⟩
          · exact Or.inr ⟨fun hmem => (List.mem_cons.mp hmem).elim hhead hid, hplace⟩
      · rintro (⟨offset, hoffset, rfl⟩ | ⟨hid, hplace⟩)
        · cases offset with
          | zero =>
              right
              obtain rfl : head = id := Option.some.inj hoffset
              exact ⟨hnodup.1, by rw [if_pos rfl]; rfl⟩
          | succ offset => exact Or.inl ⟨offset, hoffset, by omega⟩
        · rw [List.mem_cons, not_or] at hid
          exact Or.inr ⟨hid.2, by rwa [if_neg hid.1]⟩

/-- Only lists of distinct identifiers have a directory. -/
theorem nodup_of_ofIds {ids : List MapId} {directory : Directory}
    (h : ofIds ids = .ok directory) : ids.Nodup := by
  rw [ofIds] at h
  cases hrepeat : firstRepeat? [] ids with
  | some repeated => simp [hrepeat] at h
  | none => exact (firstRepeat?_nil_eq_none_iff ids).mp hrepeat

theorem exists_ofIds {ids : List MapId} (hnodup : ids.Nodup) :
    ∃ directory, ofIds ids = .ok directory := by
  rw [ofIds, (firstRepeat?_nil_eq_none_iff ids).mpr hnodup]
  exact ⟨_, rfl⟩

/-- The directory of a list of identifiers gives every one its place. -/
theorem place?_ofIds {ids : List MapId} {directory : Directory}
    (h : ofIds ids = .ok directory) (id : MapId) (place : ℕ) :
    directory.place? id = some place ↔ ids[place]? = some id := by
  have hnodup := nodup_of_ofIds h
  rw [ofIds] at h
  cases hrepeat : firstRepeat? [] ids with
  | some repeated => simp [hrepeat] at h
  | none =>
      rw [hrepeat] at h
      rw [← Except.ok.inj h, place?_foldl ids hnodup]
      simp

end StreetDogs.Directory
