/-!
# Repeated names

The first entry of a list that repeats an earlier one.  A list has none exactly
when its entries are pairwise distinct.
-/

namespace StreetDogs

/-- The first entry that repeats an earlier entry or one of `seen`. -/
def firstRepeat? (seen : List String) : List String → Option String
  | [] => none
  | name :: names =>
    if name ∈ seen then some name else firstRepeat? (name :: seen) names

theorem firstRepeat?_eq_none_iff (names : List String) (seen : List String) :
    firstRepeat? seen names = none ↔ names.Nodup ∧ ∀ name ∈ names, name ∉ seen := by
  induction names generalizing seen with
  | nil => simp [firstRepeat?]
  | cons name names ih =>
      by_cases hseen : name ∈ seen
      · simp [firstRepeat?, hseen]
      · simp only [firstRepeat?, hseen, if_false, ih, List.nodup_cons, List.mem_cons]
        constructor
        · rintro ⟨hnodup, hfresh⟩
          refine ⟨⟨fun hmem => hfresh name hmem (Or.inl rfl), hnodup⟩, ?_⟩
          rintro other (rfl | hmem)
          · exact hseen
          · exact fun hother => hfresh other hmem (Or.inr hother)
        · rintro ⟨⟨hname, hnodup⟩, hfresh⟩
          refine ⟨hnodup, fun other hmem => ?_⟩
          rintro (rfl | hother)
          · exact hname hmem
          · exact hfresh other (Or.inr hmem) hother

/-- Without earlier names, no repetition means that the names are distinct. -/
theorem firstRepeat?_nil_eq_none_iff (names : List String) :
    firstRepeat? [] names = none ↔ names.Nodup := by
  simp [firstRepeat?_eq_none_iff]

end StreetDogs
