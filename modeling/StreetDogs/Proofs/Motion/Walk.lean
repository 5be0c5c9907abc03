import StreetDogs.Proofs.Motion.Corner
import StreetDogs.Proofs.Motion.Search

/-!
# Walks along a line of roads

A dog that drives past the edge of its road goes on to the first road of the
map that lies on the same line, begins exactly where its road ends and reaches
further.  Seen in the direction of the drive every road reaches further than the
one before and none is passed at the end behind, so the walk never turns round
and ends on a road that nothing prolongs or that the candidate does not pass.
-/

namespace StreetDogs

open Binary64

namespace RoadEnd

def opposite : RoadEnd → RoadEnd
  | low => high
  | high => low

/-- The coordinate, counted in the direction that leads out of a road over the
end. -/
def outward (e : RoadEnd) (x : ℚ) : ℚ :=
  match e with
  | low => -x
  | high => x

@[simp]
theorem opposite_opposite (e : RoadEnd) : e.opposite.opposite = e := by
  cases e <;> rfl

@[simp]
theorem outward_opposite (e : RoadEnd) (x : ℚ) : e.opposite.outward x = -e.outward x := by
  cases e with
  | low => exact (neg_neg x).symm
  | high => rfl

theorem eq_or_eq_opposite (e other : RoadEnd) : other = e ∨ other = e.opposite := by
  cases e <;> cases other <;> decide

/-- The edge lies no nearer than the end it belongs to. -/
theorem outward_le_edge (e : RoadEnd) (c : Coord) :
    e.outward c.toInt ≤ e.outward (value (e.edge c)) := by
  cases e with
  | low =>
      have hvalue : value (low.edge c) = lowEdge c := (lowEdge_exact c).2
      rw [hvalue]
      exact neg_le_neg (lowEdge_le c)
  | high =>
      have hvalue : value (high.edge c) = highEdge c := (highEdge_exact c).2
      rw [hvalue]
      exact le_highEdge c

end RoadEnd

namespace Road

/-- The coordinate along the road lies beyond the edge at an end. -/
def Passed (road : Road) (e : RoadEnd) (x : ℚ) : Prop :=
  e.outward (value (e.edge (road.endCoord e))) < e.outward x

/-- The road is taken on over an end by `next`, which lies on the same line,
begins exactly where the road ends and reaches further. -/
structure ProlongedBy (road : Road) (e : RoadEnd) (next : Road) : Prop where
  line : road.SameLine next
  joint : next.endCoord e.opposite = road.endCoord e
  further : e.outward (road.endCoord e).toInt < e.outward (next.endCoord e).toInt

variable {road next : Road} {e : RoadEnd} {x y : ℚ}

theorem outward_opposite_end_le (road : Road) (e : RoadEnd) :
    e.outward (road.endCoord e.opposite).toInt ≤ e.outward (road.endCoord e).toInt := by
  have hspan : (road.low.toInt : ℚ) ≤ road.high.toInt := by
    exact_mod_cast Int32.le_iff_toInt_le.mp road.low_le_high
  cases e with
  | low => exact neg_le_neg hspan
  | high => exact hspan

theorem Passed.mono (h : road.Passed e x) (hxy : e.outward x ≤ e.outward y) : road.Passed e y :=
  lt_of_lt_of_le h hxy

/-- No coordinate lies beyond both ends. -/
theorem Passed.not_opposite (h : road.Passed e x) : ¬ road.Passed e.opposite x := by
  intro hopposite
  have hfront := e.outward_le_edge (road.endCoord e)
  have hback := e.opposite.outward_le_edge (road.endCoord e.opposite)
  have hspan := road.outward_opposite_end_le e
  rw [Passed] at h hopposite
  simp only [RoadEnd.outward_opposite] at hback hopposite
  linarith

theorem Passed.unique {e' : RoadEnd} (h : road.Passed e x) (h' : road.Passed e' x) : e' = e := by
  rcases e.eq_or_eq_opposite e' with heq | rfl
  · exact heq
  · exact absurd h' h.not_opposite

/-- A coordinate beyond the end that joins two roads lies on the second one or
beyond its other end. -/
theorem Passed.not_behind (h : road.Passed e x) (hnext : road.ProlongedBy e next) :
    ¬ next.Passed e.opposite x := by
  intro hbehind
  have hfront := e.outward_le_edge (road.endCoord e)
  have hback := e.opposite.outward_le_edge (next.endCoord e.opposite)
  rw [Passed] at h hbehind
  rw [hnext.joint] at hback hbehind
  simp only [RoadEnd.outward_opposite] at hback hbehind
  linarith

theorem not_prolongedBy_self (road : Road) (e : RoadEnd) : ¬ road.ProlongedBy e road :=
  fun h => lt_irrefl _ h.further

/-- At either end a road has one of its end points, on its line. -/
private theorem exists_endPoint (road : Road) (e : RoadEnd) :
    ∃ p, (p = road.start ∨ p = road.finish) ∧ road.axis.coord p = road.endCoord e ∧
      road.axis.perpendicular.coord p = road.fixed := by
  have hends : road.endCoord e = road.axis.coord road.start ∨ road.endCoord e = road.stop := by
    cases e with
    | low =>
        change (if _ ≤ _ then _ else _) = _ ∨ (if _ ≤ _ then _ else _) = _
        split_ifs <;> simp
    | high =>
        change (if _ ≤ _ then _ else _) = _ ∨ (if _ ≤ _ then _ else _) = _
        split_ifs <;> simp
  rcases hends with hend | hend
  · exact ⟨road.start, Or.inl rfl, hend.symm, rfl⟩
  · exact ⟨road.finish, Or.inr rfl, (Axis.coord_finish road).trans hend.symm,
      Axis.perpendicular_coord_finish road⟩

private theorem gridPoint_eq (axis : Axis) {p q : GridPoint} (halong : axis.coord p = axis.coord q)
    (hacross : axis.perpendicular.coord p = axis.perpendicular.coord q) : p = q := by
  obtain ⟨px, py⟩ := p
  obtain ⟨qx, qy⟩ := q
  cases axis with
  | horizontal => exact congrArg₂ GridPoint.mk halong hacross
  | vertical => exact congrArg₂ GridPoint.mk hacross halong

/-- Roads on one line of which one begins where the other ends share that end
point. -/
private theorem sharesEnd_of_joint (hline : road.SameLine next)
    (hjoint : next.endCoord e.opposite = road.endCoord e) : road.sharesEnd next = true := by
  obtain ⟨p, hp, halong, hacross⟩ := road.exists_endPoint e
  obtain ⟨q, hq, halong', hacross'⟩ := next.exists_endPoint e.opposite
  rw [hline.1] at halong' hacross'
  obtain rfl : p = q := gridPoint_eq road.axis (halong.trans (hjoint.symm.trans halong'.symm))
    (hacross.trans (hline.2.symm.trans hacross'.symm))
  rw [sharesEnd]
  rcases hp with hp | hp <;> rcases hq with hq | hq <;> simp [← hp, ← hq]

def continues (road : Road) (e : RoadEnd) : Road → Bool :=
  match e with
  | .low => road.continuesDown
  | .high => road.continuesUp

theorem continues_iff : road.continues e next = true ↔
    next.endCoord e.opposite = road.endCoord e ∧
      e.outward (road.endCoord e).toInt < e.outward (next.endCoord e).toInt := by
  cases e with
  | low =>
      have hlow : RoadEnd.low.outward road.low.toInt < RoadEnd.low.outward next.low.toInt ↔
          next.low < road.low := by
        rw [Int32.lt_iff_toInt_lt, RoadEnd.outward, RoadEnd.outward, neg_lt_neg_iff, Int.cast_lt]
      rw [continues, continuesDown, Bool.and_eq_true, beq_iff_eq, decide_eq_true_iff, ← hlow]
      rfl
  | high =>
      have hhigh : RoadEnd.high.outward road.high.toInt < RoadEnd.high.outward next.high.toInt ↔
          road.high < next.high := by
        rw [Int32.lt_iff_toInt_lt, RoadEnd.outward, RoadEnd.outward, Int.cast_lt]
      rw [continues, continuesUp, Bool.and_eq_true, beq_iff_eq, decide_eq_true_iff, ← hhigh]
      rfl

/-- A road is prolonged by the adjacent roads that pass the test. -/
theorem prolongedBy_iff : road.ProlongedBy e next ↔
    road.contact next = some .adjacent ∧ road.continues e next = true := by
  rw [continues_iff]
  constructor
  · rintro ⟨hline, hjoint, hfurther⟩
    exact ⟨contact_eq_adjacent_iff.mpr ⟨hline.1.symm, sharesEnd_of_joint hline hjoint⟩,
      hjoint, hfurther⟩
  · rintro ⟨hcontact, hjoint, hfurther⟩
    exact ⟨axis_fixed_eq_of_adjacent hcontact, hjoint, hfurther⟩

end Road

namespace StreetMap

variable {map : StreetMap} {candidate : Vec} {index next last : ℕ} {road nextRoad : Road}
  {e : RoadEnd}

/-- A dog leaves its road over the end that the candidate passes, for the first
road of the map that prolongs it there. -/
theorem continuation?_eq_some_iff (hroad : map.road? index = some road)
    (hfinite : (road.axis.component candidate).isFinite = true) :
    map.continuation? candidate index = some next ↔
      ∃ e, road.Passed e (value (road.axis.component candidate)) ∧
        IsLeast (map.indicesOf (road.ProlongedBy e)) next := by
  have hsearch (e : RoadEnd) : map.adjacentRoad? index (road.continues e) = some next ↔
      IsLeast (map.indicesOf (road.ProlongedBy e)) next :=
    find?_touching_eq_some_iff hroad (road.not_prolongedBy_self e) fun _ => Road.prolongedBy_iff
  have hhigh : Coord.real road.high + halfWidth < road.axis.component candidate ↔
      road.Passed .high (value (road.axis.component candidate)) :=
    lt_iff (highEdge_exact road.high).1 hfinite
  have hlow : road.axis.component candidate < Coord.real road.low - halfWidth ↔
      road.Passed .low (value (road.axis.component candidate)) := by
    rw [lt_iff hfinite (lowEdge_exact road.low).1]
    exact neg_lt_neg_iff.symm
  have honly {e : RoadEnd} (h : road.Passed e (value (road.axis.component candidate))) :
      IsLeast (map.indicesOf (road.ProlongedBy e)) next ↔
        ∃ e, road.Passed e (value (road.axis.component candidate)) ∧
          IsLeast (map.indicesOf (road.ProlongedBy e)) next := by
    constructor
    · exact fun hleast => ⟨e, h, hleast⟩
    · rintro ⟨_, h', hleast⟩
      exact h.unique h' ▸ hleast
  rw [continuation?, hroad]
  dsimp only
  split_ifs with habove hbelow
  · exact (hsearch .high).trans (honly (hhigh.mp habove))
  · exact (hsearch .low).trans (honly (hlow.mp hbelow))
  · refine iff_of_false not_false ?_
    rintro ⟨e, hpassed, -⟩
    cases e with
    | low => exact hbelow (hlow.mpr hpassed)
    | high => exact habove (hhigh.mpr hpassed)

/-- A step over an end leads to a road that prolongs the first one there, and
that is not passed at the end behind. -/
theorem step_of_continuation? (hroad : map.road? index = some road)
    (hfinite : (road.axis.component candidate).isFinite = true)
    (hbehind : ¬ road.Passed e.opposite (value (road.axis.component candidate)))
    (h : map.continuation? candidate index = some next) :
    road.Passed e (value (road.axis.component candidate)) ∧ ∃ nextRoad,
      map.road? next = some nextRoad ∧ road.ProlongedBy e nextRoad ∧
        ¬ nextRoad.Passed e.opposite (value (nextRoad.axis.component candidate)) := by
  obtain ⟨e', hpassed, ⟨nextRoad, hnext, hprolonged⟩, -⟩ :=
    (continuation?_eq_some_iff hroad hfinite).mp h
  obtain rfl : e' = e :=
    (e.eq_or_eq_opposite e').resolve_right fun heq => hbehind (heq ▸ hpassed)
  refine ⟨hpassed, nextRoad, hnext, hprolonged, ?_⟩
  rw [hprolonged.line.1]
  exact hpassed.not_behind hprolonged

/-! ## The walk ends -/

/-- The ends of roads of the map that lie beyond the end of the road. -/
def furtherEnds (map : StreetMap) (e : RoadEnd) (road : Road) : Finset ℚ :=
  (map.roads.map fun other => e.outward (other.endCoord e).toInt).toFinset.filter
    (e.outward (road.endCoord e).toInt < ·)

/-- Every step over an end leaves fewer ends ahead. -/
theorem card_furtherEnds_lt (h : road.ProlongedBy e nextRoad) (hmem : nextRoad ∈ map.roads) :
    (map.furtherEnds e nextRoad).card < (map.furtherEnds e road).card := by
  apply Finset.card_lt_card
  rw [Finset.ssubset_iff_of_subset]
  · refine ⟨e.outward (nextRoad.endCoord e).toInt, ?_, ?_⟩
    · rw [furtherEnds, Finset.mem_filter, List.mem_toFinset]
      exact ⟨List.mem_map_of_mem hmem, h.further⟩
    · rw [furtherEnds, Finset.mem_filter]
      exact fun hself => lt_irrefl _ hself.2
  · intro x hx
    rw [furtherEnds, Finset.mem_filter] at hx ⊢
    exact ⟨hx.1, h.further.trans hx.2⟩

theorem card_furtherEnds_lt_length (e : RoadEnd) (hmem : road ∈ map.roads) :
    (map.furtherEnds e road).card < map.roads.length := by
  let ends := map.roads.map fun other => e.outward (other.endCoord e).toInt
  calc
    (map.furtherEnds e road).card < ends.toFinset.card := by
      apply Finset.card_lt_card
      apply Finset.filter_ssubset.mpr
      exact ⟨_, List.mem_toFinset.mpr (List.mem_map_of_mem hmem), lt_irrefl _⟩
    _ ≤ ends.length := List.toFinset_card_le ends
    _ = map.roads.length := List.length_map _

/-- With as many steps as there are ends ahead the walk comes to its end. -/
private theorem continuation?_follow (limit : ℕ) (hroad : map.road? index = some road)
    (hfinite : (road.axis.component candidate).isFinite = true)
    (hbehind : ¬ road.Passed e.opposite (value (road.axis.component candidate)))
    (hlimit : (map.furtherEnds e road).card ≤ limit) :
    map.continuation? candidate (map.follow candidate limit index) = none := by
  induction limit generalizing index road with
  | zero =>
      cases hnext : map.continuation? candidate index with
      | none => rwa [follow]
      | some next =>
          obtain ⟨-, nextRoad, hnextRoad, hprolonged, -⟩ :=
            step_of_continuation? hroad hfinite hbehind hnext
          have hfewer := card_furtherEnds_lt hprolonged (List.mem_of_getElem? hnextRoad)
          omega
  | succ limit ih =>
      rw [follow]
      cases hnext : map.continuation? candidate index with
      | none => exact hnext
      | some next =>
          obtain ⟨-, nextRoad, hnextRoad, hprolonged, hbehind'⟩ :=
            step_of_continuation? hroad hfinite hbehind hnext
          have hfewer := card_furtherEnds_lt hprolonged (List.mem_of_getElem? hnextRoad)
          rw [← hprolonged.line.1] at hfinite
          exact ih hnextRoad hfinite hbehind' (by omega)

/-- The anchor after driving is a road on the line of the first one. -/
theorem exists_road_anchor (hroad : map.road? index = some road)
    (hfinite : (road.axis.component candidate).isFinite = true) :
    ∃ last, map.road? (map.anchor candidate index) = some last ∧ road.SameLine last := by
  obtain ⟨last, path, hway⟩ := follow_lineWay map.roads.length hroad hfinite
  exact ⟨last, hway.last_eq, hway.line⟩

/-- The anchor after driving is a road that the dog does not leave. -/
theorem continuation?_anchor (hroad : map.road? index = some road)
    (hfinite : (road.axis.component candidate).isFinite = true) :
    map.continuation? candidate (map.anchor candidate index) = none := by
  have hlimit (e : RoadEnd) := (card_furtherEnds_lt_length e (List.mem_of_getElem? hroad)).le
  by_cases hpassed : road.Passed .high (value (road.axis.component candidate))
  · exact continuation?_follow map.roads.length hroad hfinite hpassed.not_opposite (hlimit .high)
  · exact continuation?_follow (e := .low) map.roads.length hroad hfinite hpassed (hlimit .low)

/-- The dog leaves the road `index` for the road `next`. -/
def Continues (map : StreetMap) (candidate : Vec) (index next : ℕ) : Prop :=
  map.continuation? candidate index = some next

private theorem chain_follow (limit : ℕ) (candidate : Vec) (index : ℕ) :
    Relation.ReflTransGen (map.Continues candidate) index (map.follow candidate limit index) := by
  induction limit generalizing index with
  | zero => exact .refl
  | succ limit ih =>
      rw [follow]
      cases hnext : map.continuation? candidate index with
      | none => exact .refl
      | some next => exact .head hnext (ih next)

/-- The anchor after driving is reached by single steps. -/
theorem chain_anchor (map : StreetMap) (candidate : Vec) (index : ℕ) :
    Relation.ReflTransGen (map.Continues candidate) index (map.anchor candidate index) :=
  chain_follow map.roads.length candidate index

/-- Steps that lead to a road that the dog does not leave lead to the anchor. -/
theorem anchor_eq_of_chain (hroad : map.road? index = some road)
    (hfinite : (road.axis.component candidate).isFinite = true)
    (hchain : Relation.ReflTransGen (map.Continues candidate) index last)
    (hlast : map.continuation? candidate last = none) : map.anchor candidate index = last := by
  have hunique : Relator.RightUnique (map.Continues candidate) :=
    fun _ _ _ h h' => Option.some.inj (h.symm.trans h')
  have hstays {place other : ℕ} (hplace : map.continuation? candidate place = none)
      (h : Relation.ReflTransGen (map.Continues candidate) place other) : place = other := by
    rcases h.cases_head with heq | ⟨_, hstep, -⟩
    · exact heq
    · rw [Continues, hplace] at hstep
      cases hstep
  rcases (map.chain_anchor candidate index).total_of_right_unique hunique hchain with h | h
  · exact hstays (continuation?_anchor hroad hfinite) h
  · exact (hstays hlast h).symm

end StreetMap

end StreetDogs
