import StreetDogs.Proofs.Motion.Candidate
import StreetDogs.Proofs.Motion.Follow
import StreetDogs.Proofs.Motion.Reach

/-!
# Travel

Whatever a step does, whether it follows a line of roads, turns onto a crossing
road or is held back, it moves the dog along one axis towards the candidate,
over roads in contact, and in sight of them all the way.
-/

namespace StreetDogs

open Binary64

namespace Motion

/-- The motion is anchored to a road of the map and within the widened box of
that road. -/
def Anchored (map : StreetMap) (motion : Motion) : Prop :=
  ∃ road, map.road? motion.road = some road ∧ road.contains motion.position = true

/-- A movement along the axis from one motion to another one on the way to the
candidate. -/
structure Travels (map : StreetMap) (axis : Axis) (before : Motion) (candidate : Vec)
    (after : Motion) : Prop where
  anchored : after.Anchored map
  across : value (axis.perpendicular.component after.position) =
    value (axis.perpendicular.component before.position)
  along : value (axis.component after.position) ∈
    Set.uIcc (value (axis.component before.position)) (value (axis.component candidate))
  path : ∃ path, map.Way before.road after.road path ∧
    map.Covers path (segment ℝ before.position.point after.position.point)

variable {map : StreetMap} {axis : Axis} {before after motion : Motion} {candidate : Vec}
  {road next : Road} {index : ℕ} {heading : Heading}

/-- A dog that comes to a halt on the last road of a way travels, as soon as
the roads of the way hold all coordinates it passes. -/
private theorem travels_of_covers {path : List ℕ} (hway : map.Way before.road after.road path)
    (hlast : map.road? after.road = some next)
    (hwithin : next.Within axis (axis.component after.position))
    (hwithin' : next.Within axis.perpendicular (axis.perpendicular.component after.position))
    (hacross : value (axis.perpendicular.component after.position) =
      value (axis.perpendicular.component before.position))
    (halong : (value (axis.component after.position) : ℝ) ∈
      Set.uIcc (value (axis.component before.position) : ℝ) (value (axis.component candidate)))
    (hcovers : ∀ t ∈ Set.uIcc (value (axis.component before.position) : ℝ)
        (value (axis.component after.position)), ∃ i ∈ path, ∃ passed,
      map.road? i = some passed ∧ t ∈ passed.interval axis ∧
        passed.interval axis.perpendicular = next.interval axis.perpendicular) :
    Travels map axis before candidate after := by
  refine ⟨⟨next, hlast, ?_⟩, hacross, ?_, path, hway, ?_⟩
  · exact (next.contains_iff _).mpr ((Axis.forall_iff axis).mpr ⟨hwithin, hwithin'⟩)
  · rw [Set.mem_uIcc] at halong ⊢
    exact_mod_cast halong
  · apply StreetMap.covers_segment axis
    · rw [Vec.along_point, Vec.along_point, hacross]
    · rw [Vec.along_point, Vec.along_point, Vec.along_point]
      intro t ht
      obtain ⟨i, hi, passed, hpassed, hmem, hline⟩ := hcovers t ht
      refine ⟨i, hi, passed, hpassed, hmem, ?_⟩
      rw [hline, ← hacross]
      exact ((next.within_iff _ _).mp hwithin').2

/-- A dog whose coordinates along the axis all lie on the road it comes to
travels. -/
private theorem travels_of_halt {path : List ℕ} (hway : map.Way before.road after.road path)
    (hmem : after.road ∈ path) (hlast : map.road? after.road = some next)
    (hstart : (value (axis.component before.position) : ℝ) ∈ next.interval axis)
    (hwithin : next.Within axis (axis.component after.position))
    (hwithin' : next.Within axis.perpendicular (axis.perpendicular.component after.position))
    (hacross : value (axis.perpendicular.component after.position) =
      value (axis.perpendicular.component before.position))
    (hhalt : value (axis.component after.position) =
      next.haltAt axis (value (axis.component candidate))) :
    Travels map axis before candidate after := by
  refine travels_of_covers hway hlast hwithin hwithin' hacross ?_ fun t ht => ?_
  · rw [hhalt]
    exact next.haltAt_mem_uIcc axis hstart _
  · rw [hhalt] at ht
    exact ⟨after.road, hmem, next, hlast,
      next.uIcc_subset_interval axis hstart (next.haltAt_mem_interval axis _) ht, rfl⟩

theorem isFinite_component (hcandidate : candidate.isFinite = true) (axis : Axis) :
    (axis.component candidate).isFinite = true :=
  (candidate.isFinite_iff).mp hcandidate axis

/-- A coordinate of the motion lies between the edges of its road. -/
theorem within_of_contains (hcontains : road.contains motion.position = true) (axis : Axis) :
    road.Within axis (axis.component motion.position) :=
  (road.contains_iff motion.position).mp hcontains axis

/-- A finite coordinate with the value of one on the road lies on the road. -/
theorem within_of_value_eq {x y : Float} (hx : x.isFinite = true)
    (hy : road.Within axis y) (hvalue : value x = value y) : road.Within axis x := by
  obtain ⟨-, hbelow, habove⟩ := hy
  exact ⟨hx, by rwa [hvalue], by rwa [hvalue]⟩

theorem drive_travels (hroad : map.road? motion.road = some road)
    (hcontains : road.contains motion.position = true) (hcandidate : candidate.isFinite = true)
    (hacross : value (road.axis.perpendicular.component candidate) =
      value (road.axis.perpendicular.component motion.position)) :
    Travels map road.axis motion candidate (drive map motion candidate) := by
  have hfinite := isFinite_component hcandidate
  obtain ⟨last, path, hway, hlast, hline, hhalt, hcovers⟩ :=
    StreetMap.follow_lineWay map.roads.length hroad (hfinite road.axis)
  have hdrive : drive map motion candidate =
      haltWithin last (map.anchor candidate motion.road) candidate motion.velocity := by
    rw [drive, StreetMap.anchor, hlast]
  obtain ⟨hwithin, hvalue⟩ := last.within_clampTo road.axis (hfinite road.axis)
  have hposition : (drive map motion candidate).position = road.axis.withComponent candidate
      (clampTo (Coord.real (last.extent road.axis).1 - halfWidth)
        (Coord.real (last.extent road.axis).2 + halfWidth) (road.axis.component candidate)) := by
    rw [hdrive, haltWithin, ← hline.1, Road.extent_axis]
  have hanchor : (drive map motion candidate).road = map.anchor candidate motion.road := by
    rw [hdrive, haltWithin]
  have hstart := ((road.within_iff _ _).mp (within_of_contains hcontains road.axis)).2
  have hlast' : map.road? (drive map motion candidate).road = some last := by rwa [hanchor]
  have hway' : map.Way motion.road (drive map motion candidate).road path := by rwa [hanchor]
  apply travels_of_covers hway' hlast'
  · rwa [hposition, Axis.component_withComponent]
  · rw [hposition, Axis.perpendicular_component_withComponent]
    have hold := within_of_value_eq (hfinite _)
      (within_of_contains hcontains road.axis.perpendicular) hacross
    rwa [Road.Within, ← hline.extent_perpendicular] at hold
  · rw [hposition, Axis.perpendicular_component_withComponent, hacross]
  · rw [hposition, Axis.component_withComponent, hvalue]
    exact hhalt _ hstart
  · rw [hposition, Axis.component_withComponent, hvalue]
    intro t ht
    obtain ⟨i, hi, passed, hpassed, hsame, hmem⟩ := hcovers _ hstart t ht
    exact ⟨i, hi, passed, hpassed, hmem,
      hsame.interval_perpendicular.trans hline.interval_perpendicular.symm⟩

/-- A dog held on its road travels within it. -/
theorem hold_travels (hroad : map.road? motion.road = some road)
    (hcontains : road.contains motion.position = true) (hcandidate : candidate.isFinite = true)
    (hacross : value (road.axis.component candidate) =
      value (road.axis.component motion.position)) :
    Travels map road.axis.perpendicular motion candidate (hold road motion candidate) := by
  have hfinite := isFinite_component hcandidate
  obtain ⟨hwithin, hvalue⟩ :=
    road.within_clampTo road.axis.perpendicular (hfinite road.axis.perpendicular)
  have hposition : (hold road motion candidate).position =
      road.axis.perpendicular.withComponent candidate
        (clampTo (Coord.real (road.extent road.axis.perpendicular).1 - halfWidth)
          (Coord.real (road.extent road.axis.perpendicular).2 + halfWidth)
          (road.axis.perpendicular.component candidate)) := by
    rw [hold, Road.extent_perpendicular]
  have hwithin' := within_of_value_eq (hfinite road.axis)
    (within_of_contains hcontains road.axis) hacross
  have hway : map.Way motion.road (hold road motion candidate).road [motion.road] :=
    .stay motion.road
  have hlast : map.road? (hold road motion candidate).road = some road := hroad
  apply travels_of_halt hway (List.mem_singleton_self _) hlast
  · exact ((road.within_iff _ _).mp (within_of_contains hcontains _)).2
  · rwa [hposition, Axis.component_withComponent]
  · rwa [hposition, Axis.perpendicular_perpendicular, Axis.component_perpendicular_withComponent]
  · rw [hposition, Axis.perpendicular_perpendicular, Axis.component_perpendicular_withComponent,
      hacross]
  · rw [hposition, Axis.component_withComponent, hvalue, Road.haltAt]

/-- The box of a road across another road holds the coordinates that the other
road's box takes there. -/
private theorem interval_subset_of_crossed (h : road.contact next = some .crossed) :
    next.axis = road.axis.perpendicular ∧
      road.interval road.axis.perpendicular ⊆ next.interval road.axis.perpendicular := by
  obtain ⟨hne, -, hspans⟩ := Road.contact_eq_crossed_iff.mp h
  have haxis := Axis.eq_perpendicular_of_ne hne.symm
  obtain ⟨hlow, hhigh⟩ := (Road.spans_iff _ _).mp hspans
  refine ⟨haxis, ?_⟩
  rw [← haxis, Road.interval_axis, haxis, Road.interval, Road.extent_perpendicular]
  apply Set.Icc_subset_Icc
  · exact_mod_cast lowEdge_mono hlow
  · exact_mod_cast highEdge_mono hhigh

/-- A dog that enters a crossing road within reach travels within the box of
that road. -/
theorem enter_travels (hcontains : road.contains motion.position = true)
    (hcandidate : candidate.isFinite = true)
    (hacross : value (road.axis.component candidate) =
      value (road.axis.component motion.position))
    (htouches : map.Touches motion.road index) (hnext : map.road? index = some next)
    (hcontact : road.contact next = some .crossed)
    (hreach : next.inReach (road.axis.component candidate) = true) (velocity : Vec) :
    Travels map road.axis.perpendicular motion candidate
      (enter next index candidate velocity) := by
  have hfinite := isFinite_component hcandidate
  obtain ⟨haxis, hsubset⟩ := interval_subset_of_crossed hcontact
  have hcross := Road.within_of_inReach (hfinite road.axis) hreach
  rw [haxis, Axis.perpendicular_perpendicular] at hcross
  obtain ⟨hwithin, hvalue⟩ :=
    next.within_clampTo road.axis.perpendicular (hfinite road.axis.perpendicular)
  have hstart := ((road.within_iff _ _).mp
    (within_of_contains hcontains road.axis.perpendicular)).2
  have hposition (axis : Axis) :
      axis.component (enter next index candidate velocity).position =
        clampTo (Coord.real (next.extent axis).1 - halfWidth)
          (Coord.real (next.extent axis).2 + halfWidth) (axis.component candidate) := by
    rw [enter, Road.component_clamp]
  have hkeeps : road.axis.component (enter next index candidate velocity).position =
      road.axis.component candidate := by
    rw [hposition, Road.clampTo_of_within hcross]
  apply travels_of_halt (StreetMap.Way.step htouches (.stay index))
    (List.mem_cons_of_mem _ (List.mem_singleton_self _)) hnext
  · exact hsubset hstart
  · rwa [hposition]
  · rwa [Axis.perpendicular_perpendicular, hkeeps]
  · rw [Axis.perpendicular_perpendicular, hkeeps, hacross]
  · rw [hposition, hvalue, Road.haltAt]

theorem turn_travels (hroad : map.road? motion.road = some road)
    (hcontains : road.contains motion.position = true) (hcandidate : candidate.isFinite = true)
    (hacross : value (road.axis.component candidate) =
      value (road.axis.component motion.position)) :
    Travels map road.axis.perpendicular motion candidate
      (turn map road heading motion candidate) := by
  have hhold := hold_travels hroad hcontains hcandidate hacross
  have henter {related : Road → Bool} {index : ℕ}
      (hrelated : ∀ other : Road, related other = true →
        other.inReach (road.axis.component candidate) = true)
      (h : map.crossingRoad? motion.road related = some index) :
      ∃ next, map.road? index = some next ∧ Travels map road.axis.perpendicular motion candidate
        (enter next index candidate motion.velocity) := by
    obtain ⟨htouches, road', next, hroad', hnext, hcontact, hnextRelated⟩ :=
      StreetMap.find?_touching_eq_some h
    obtain rfl := Option.some.inj (hroad.symm.trans hroad')
    exact ⟨next, hnext, enter_travels hcontains hcandidate hacross htouches hnext hcontact
      (hrelated next hnextRelated) motion.velocity⟩
  unfold turn
  dsimp only
  cases htarget : (map.crossingAhead? motion.road road heading candidate).or
      (map.crossingAt? motion.road road candidate) with
  | none => exact hhold
  | some index =>
      have hfound : ∃ next, map.road? index = some next ∧
          Travels map road.axis.perpendicular motion candidate
            (enter next index candidate motion.velocity) := by
        rcases Option.or_eq_some_iff.mp htarget with hahead | ⟨-, hat⟩
        · exact henter (fun other h => (Bool.and_eq_true _ _ ▸ h).2) hahead
        · exact henter (fun other h => (Bool.and_eq_true _ _ ▸ h).2) hat
      obtain ⟨next, hnext, htravels⟩ := hfound
      dsimp only
      rwa [hnext]

end Motion

end StreetDogs
