import StreetDogs.Proofs.Motion.Contacts

/-!
# Searches among the neighbours

The neighbours of a road are listed in the order of the map.  So a search among
them finds the same road as a scan of the whole map for the contact and the
relation asked for: the one with the least index.
-/

namespace StreetDogs

/-- In an ascending list the first entry that passes a test is the least one. -/
theorem find?_eq_some_iff_isLeast {entries : List ℕ} (h : entries.Pairwise (· < ·))
    {test : ℕ → Bool} {entry : ℕ} :
    entries.find? test = some entry ↔
      IsLeast {other | other ∈ entries ∧ test other = true} entry := by
  have hleast {found : ℕ} (hfound : entries.find? test = some found) :
      IsLeast {other | other ∈ entries ∧ test other = true} found := by
    obtain ⟨htest, before, later, rfl, hbefore⟩ := List.find?_eq_some_iff_append.mp hfound
    rw [List.pairwise_append, List.pairwise_cons] at h
    refine ⟨⟨by simp, htest⟩, ?_⟩
    rintro other ⟨hother, hpasses⟩
    rcases List.mem_append.mp hother with hearly | hlate
    · have hfails := hbefore other hearly
      rw [hpasses] at hfails
      cases hfails
    · rcases List.mem_cons.mp hlate with rfl | hlater
      · exact le_rfl
      · exact (h.2.1.1 other hlater).le
  constructor
  · exact hleast
  · intro hentry
    obtain ⟨found, hfound⟩ := Option.isSome_iff_exists.mp
      (List.find?_isSome.mpr ⟨entry, hentry.1.1, hentry.1.2⟩)
    rw [hfound, (hleast hfound).unique hentry]

/-- A search that answers with the least element fails when there is none. -/
theorem eq_none_iff_of_isLeast {found : Option ℕ} {s : Set ℕ}
    (h : ∀ index, found = some index ↔ IsLeast s index) : found = none ↔ s = ∅ := by
  rw [Set.eq_empty_iff_forall_notMem]
  constructor
  · intro hnone index hindex
    have hleast := (h (sInf s)).mpr ⟨Nat.sInf_mem ⟨index, hindex⟩, fun _ => Nat.sInf_le⟩
    rw [hnone] at hleast
    cases hleast
  · intro hempty
    cases hfound : found with
    | none => rfl
    | some index => exact absurd ((h index).mp hfound).1 (hempty index)

namespace StreetMap

def indicesOf (map : StreetMap) (p : Road → Prop) : Set ℕ :=
  {index | ∃ road, map.road? index = some road ∧ p road}

variable {map : StreetMap} {index other : ℕ} {road : Road} {contact : Contact}

/-- A search among the neighbours of a road finds the first road of the map in
that contact with it that is related as asked. -/
theorem find?_touching_eq_some_iff (hroad : map.road? index = some road) {related : Road → Bool}
    {p : Road → Prop} (hself : ¬ p road)
    (hp : ∀ next, p next ↔ road.contact next = some contact ∧ related next = true) :
    (map.junctions.touching index contact).find?
        (fun position => (map.road? position).any related) = some other ↔
      IsLeast (map.indicesOf p) other := by
  have hascending : (map.junctions.touching index contact).Pairwise (· < ·) := by
    rw [map.junctions_eq]
    exact Junctions.pairwise_touching map.roads index contact
  rw [find?_eq_some_iff_isLeast hascending]
  have hset : {other | other ∈ map.junctions.touching index contact ∧
      (map.road? other).any related = true} = map.indicesOf p := by
    ext position
    rw [Set.mem_ofPred_eq, mem_touching_iff, indicesOf, Set.mem_ofPred_eq]
    constructor
    · rintro ⟨⟨-, road', next, hroad', hnext, hcontact⟩, hrelated⟩
      obtain rfl := Option.some.inj (hroad.symm.trans hroad')
      rw [hnext, Option.any_some] at hrelated
      exact ⟨next, hnext, (hp next).mpr ⟨hcontact, hrelated⟩⟩
    · rintro ⟨next, hnext, hpNext⟩
      obtain ⟨hcontact, hrelated⟩ := (hp next).mp hpNext
      refine ⟨⟨?_, road, next, hroad, hnext, hcontact⟩, by rwa [hnext, Option.any_some]⟩
      rintro rfl
      obtain rfl := Option.some.inj (hroad.symm.trans hnext)
      exact hself hpNext
  rw [hset]

end StreetMap

end StreetDogs
