import StreetDogs.Proofs.Motion.Travel
import StreetDogs.Proofs.Motion.Walk

/-!
# Drives come to an end

A drive goes from road to road for as long as there is one to go on to, and
nothing counts the roads.  It ends all the same: every road reaches further over
the end that the candidate passes than the one before, and none of them is
passed at the end behind.  So no road is visited twice, and the dog changes road
less often than the map has roads.
-/

namespace StreetDogs

open Binary64

namespace StreetMap

/-- A whole drive from the road `index`, however long it takes: the roads the dog
stands on one after the other, up to one that it does not leave. -/
inductive Drives (map : StreetMap) (candidate : Vec) : ℕ → List ℕ → Prop where
  | halt {index : ℕ} (stays : map.continuation? candidate index = none) :
      Drives map candidate index [index]
  | leave {index next : ℕ} {later : List ℕ} (leaves : map.Continues candidate index next)
      (rest : Drives map candidate next later) : Drives map candidate index (index :: later)

/-- The road `other` reaches further over the end than the road `index`. -/
def Further (map : StreetMap) (e : RoadEnd) (index other : ℕ) : Prop :=
  ∃ road next, map.road? index = some road ∧ map.road? other = some next ∧
    e.outward (road.endCoord e).toInt < e.outward (next.endCoord e).toInt

/-- The roads visited on the way to the coordinate `x` along the line of a road.
The dog leaves every one of them over the same end, for a road that prolongs it
there, and is past the other end of none. -/
structure Straight (map : StreetMap) (road : Road) (e : RoadEnd) (x : ℚ) (visited : List ℕ) :
    Prop where
  line : ∀ index ∈ visited, ∃ passed, map.road? index = some passed ∧ road.SameLine passed ∧
    ¬ passed.Passed e.opposite x
  steps : visited.IsChain fun index next => ∃ left entered, map.road? index = some left ∧
    map.road? next = some entered ∧ left.Passed e x ∧ left.ProlongedBy e entered

variable {map : StreetMap} {candidate : Vec} {index last : ℕ} {road : Road} {e : RoadEnd} {x : ℚ}
  {visited : List ℕ}

theorem Further.trans {index next last : ℕ} (h : map.Further e index next)
    (h' : map.Further e next last) : map.Further e index last := by
  obtain ⟨road, middle, hroad, hmiddle, hlt⟩ := h
  obtain ⟨middle', lastRoad, hmiddle', hlast, hlt'⟩ := h'
  obtain rfl := Option.some.inj (hmiddle.symm.trans hmiddle')
  exact ⟨road, lastRoad, hroad, hlast, hlt.trans hlt'⟩

instance : IsTrans ℕ (map.Further e) := ⟨fun _ _ _ => Further.trans⟩

theorem not_further_self (index : ℕ) : ¬ map.Further e index index := by
  rintro ⟨road, next, hroad, hnext, hlt⟩
  obtain rfl := Option.some.inj (hroad.symm.trans hnext)
  exact lt_irrefl _ hlt

namespace Straight

theorem pairwise_further (h : map.Straight road e x visited) :
    visited.Pairwise (map.Further e) := by
  rw [← List.isChain_iff_pairwise]
  refine h.steps.imp fun index next hstep => ?_
  obtain ⟨left, entered, hleft, hentered, -, hprolonged⟩ := hstep
  exact ⟨left, entered, hleft, hentered, hprolonged.further⟩

/-- No road is visited twice. -/
theorem nodup (h : map.Straight road e x visited) : visited.Nodup := by
  refine h.pairwise_further.imp ?_
  rintro index _ hfurther rfl
  exact not_further_self index hfurther

/-- Only roads of the map are visited, so there are no more than it has. -/
theorem length_le (h : map.Straight road e x visited) : visited.length ≤ map.roads.length := by
  have hknown : visited ⊆ List.range map.roads.length := by
    intro index hindex
    obtain ⟨passed, hpassed, -, -⟩ := h.line index hindex
    exact List.mem_range.mpr (List.getElem?_eq_some_iff.mp hpassed).1
  calc
    visited.length ≤ (List.range map.roads.length).length :=
      (h.nodup.subperm hknown).length_le
    _ = map.roads.length := List.length_range

end Straight

namespace Drives

theorem head?_eq (h : map.Drives candidate index visited) : visited.head? = some index := by
  cases h with
  | halt => rfl
  | leave => rfl

/-- There is one road to go on to at most, so the whole drive is determined. -/
theorem unique {other : List ℕ} (h : map.Drives candidate index visited)
    (h' : map.Drives candidate index other) : other = visited := by
  induction h generalizing other with
  | halt stays =>
      cases h' with
      | halt => rfl
      | leave leaves => cases stays.symm.trans leaves
  | leave leaves _ ih =>
      cases h' with
      | halt stays => cases stays.symm.trans leaves
      | leave leaves' rest' =>
          obtain rfl := Option.some.inj (leaves.symm.trans leaves')
          rw [ih rest']

/-- Steps that lead to a road that the dog does not leave make a whole drive. -/
theorem of_chain (hchain : Relation.ReflTransGen (map.Continues candidate) index last)
    (hlast : map.continuation? candidate last = none) :
    ∃ visited, map.Drives candidate index visited ∧ visited.getLast? = some last := by
  induction hchain using Relation.ReflTransGen.head_induction_on with
  | refl => exact ⟨[last], halt hlast, rfl⟩
  | head leaves _ ih =>
      obtain ⟨later, hrest, hend⟩ := ih
      refine ⟨_ :: later, leave leaves hrest, ?_⟩
      rw [List.getLast?_cons, hend, Option.getD_some]

/-- A drive is straight.  A road entered over an end is not passed at the end
behind, so the other arm of the walk stays closed from one road to the next. -/
theorem straight (h : map.Drives candidate index visited) (hroad : map.road? index = some road)
    (hfinite : (road.axis.component candidate).isFinite = true)
    (hbehind : ¬ road.Passed e.opposite (value (road.axis.component candidate))) :
    map.Straight road e (value (road.axis.component candidate)) visited := by
  induction h generalizing road with
  | halt =>
      constructor
      · intro other hother
        rw [List.mem_singleton.mp hother]
        exact ⟨road, hroad, .refl road, hbehind⟩
      · exact List.isChain_singleton _
  | leave leaves rest ih =>
      obtain ⟨hpassed, nextRoad, hnext, hprolonged, hbehind'⟩ :=
        step_of_continuation? hroad hfinite hbehind leaves
      have haxis := hprolonged.line.1
      obtain ⟨hline, hsteps⟩ := ih hnext (haxis ▸ hfinite) hbehind'
      rw [haxis] at hline hsteps
      constructor
      · rw [List.forall_mem_cons]
        refine ⟨⟨road, hroad, .refl road, hbehind⟩, fun other hother => ?_⟩
        obtain ⟨passed, hother, hsame, hfront⟩ := hline other hother
        exact ⟨passed, hother, hprolonged.line.trans hsame, hfront⟩
      · rw [List.isChain_cons]
        refine ⟨fun next hhead => ?_, hsteps⟩
        obtain rfl := Option.some.inj (rest.head?_eq.symm.trans hhead)
        exact ⟨road, nextRoad, hroad, hnext, hpassed, hprolonged⟩

end Drives

/-- Roads on one line in no order: one without length, two that cover the same
ground, and one that covers all. -/
def jumbled : StreetMap where
  id := "jumbled"
  name := "Jumbled"
  roads := [.horizontal ⟨20, 0⟩ 30, .horizontal ⟨10, 0⟩ 10, .horizontal ⟨20, 0⟩ 10,
    .horizontal ⟨0, 0⟩ 10, .horizontal ⟨10, 0⟩ 20, .horizontal ⟨30, 0⟩ 0]
  buildings := []
  offices := []
  dogSpeed := none
  roads_ne_nil := List.cons_ne_nil _ _
  offices_nodup := List.nodup_nil
  dogSpeed_usable := usable_of_mem_none

end StreetMap

namespace Motion

variable {map : StreetMap} {motion : Motion} {road : Road} {candidate : Vec}

/-- Every drive ends.  It visits pairwise different roads on the line of the first
one, leaves each of them over the same end and never passes the other, changes
road less often than the map has roads, and brings the dog to the last of them. -/
theorem drive_ends (hroad : map.road? motion.road = some road)
    (hcandidate : candidate.isFinite = true) :
    ∃ e visited, map.Drives candidate motion.road visited ∧
      (∀ other, map.Drives candidate motion.road other → other = visited) ∧
      map.Straight road e (value (road.axis.component candidate)) visited ∧
      visited.Nodup ∧ visited.tail.length < map.roads.length ∧
      visited.getLast? = some (drive map motion candidate).road := by
  have hfinite := isFinite_component hcandidate road.axis
  -- The candidate lies beyond one end at most, and that end is the one to leave by.
  obtain ⟨e, hbehind⟩ : ∃ e : RoadEnd,
      ¬ road.Passed e.opposite (value (road.axis.component candidate)) := by
    by_cases hpassed : road.Passed .high (value (road.axis.component candidate))
    · exact ⟨.high, hpassed.not_opposite⟩
    · exact ⟨.low, hpassed⟩
  obtain ⟨visited, hdrives, hend⟩ := StreetMap.Drives.of_chain
    (map.chain_anchor candidate motion.road) (StreetMap.continuation?_anchor hroad hfinite)
  have hstraight := hdrives.straight hroad hfinite hbehind
  obtain ⟨last, hlast, -⟩ := StreetMap.exists_road_anchor hroad hfinite
  have hdrive : (drive map motion candidate).road = map.anchor candidate motion.road := by
    rw [drive, hlast]
    rfl
  have hpos := List.length_pos_of_mem (List.mem_of_getElem? hroad)
  have hlength := hstraight.length_le
  refine ⟨e, visited, hdrives, fun other hother => hdrives.unique hother, hstraight,
    hstraight.nodup, ?_, ?_⟩
  · rw [List.length_tail]
    omega
  · rw [hdrive, hend]

/-- A drive over three of the roads on a line, past a road without length, a road
that lies on another one and a road that covers them all. -/
theorem drive_ends_jumbled :
    StreetMap.jumbled.Drives ⟨50.0, 0.25⟩ 3 [3, 2, 0] ∧
      (∃ e, StreetMap.jumbled.Straight (.horizontal ⟨0, 0⟩ 10) e
        (value (Axis.horizontal.component ⟨50.0, 0.25⟩)) [3, 2, 0]) ∧
      (drive .jumbled ⟨3, ⟨5.0, 0.25⟩, .east⟩ ⟨50.0, 0.25⟩).road = 0 := by
  have hfirst : StreetMap.jumbled.Continues ⟨50.0, 0.25⟩ 3 2 :=
    (by decide +kernel : StreetMap.jumbled.continuation? ⟨50.0, 0.25⟩ 3 = some 2)
  have hsecond : StreetMap.jumbled.Continues ⟨50.0, 0.25⟩ 2 0 :=
    (by decide +kernel : StreetMap.jumbled.continuation? ⟨50.0, 0.25⟩ 2 = some 0)
  have hdrives : StreetMap.jumbled.Drives ⟨50.0, 0.25⟩ 3 [3, 2, 0] :=
    .leave hfirst (.leave hsecond (.halt (by decide +kernel)))
  have hroad : StreetMap.jumbled.road? 3 = some (.horizontal ⟨0, 0⟩ 10) := rfl
  obtain ⟨e, visited, -, hunique, hstraight, -, -, hend⟩ :=
    @drive_ends .jumbled ⟨3, ⟨5.0, 0.25⟩, .east⟩ _ ⟨50.0, 0.25⟩ hroad (by decide +kernel)
  obtain rfl := hunique _ hdrives
  exact ⟨hdrives, ⟨e, hstraight⟩, (Option.some.inj hend).symm⟩

end Motion

end StreetDogs
