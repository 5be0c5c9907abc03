import StreetDogs.Proofs.Motion.Travel

/-!
# Steps of motion

A step of an anchored dog with a finite candidate succeeds, and the dog travels
along the axis of its heading; so it stays anchored, turns up nowhere else and
never leaves the roads.  The road a dog is anchored to exists whatever the
numbers are.
-/

namespace StreetDogs

open Binary64

namespace Motion

variable {map : StreetMap} {heading : Heading} {velocity : Vec} {time : Duration}
  {motion after : Motion} {road : Road}

/-- A step of a dog on a known road drives or turns, unless the candidate is
not finite. -/
theorem advance_eq (hroad : map.road? motion.road = some road) :
    motion.advance map heading velocity time =
      if (motion.candidate velocity time).isFinite = true then
        .ok (if heading.axis? = some road.axis.perpendicular then
          turn map road heading (motion.withVelocity velocity) (motion.candidate velocity time)
        else
          drive map (motion.withVelocity velocity) (motion.candidate velocity time))
      else .error .nonFinitePosition := by
  have hacross : heading.axis?.any (· != road.axis) = true ↔
      heading.axis? = some road.axis.perpendicular := by
    cases heading.axis? with
    | none => simp
    | some axis =>
        rw [Option.any_some, bne_iff_ne, Option.some_inj]
        exact ⟨Axis.eq_perpendicular_of_ne, fun h => h ▸ road.axis.perpendicular_ne⟩
  rw [advance]
  rw [hroad]
  dsimp only
  cases (motion.candidate velocity time).isFinite with
  | false => rfl
  | true => simp only [Bool.not_true, Bool.false_eq_true, if_false, if_true, hacross,
      apply_ite Except.ok]

/-- A step on a road that the map does not have is refused. -/
theorem advance_eq_unknownRoad (hroad : map.road? motion.road = none) :
    motion.advance map heading velocity time = .error (.unknownRoad motion.road) := by
  rw [advance]
  rw [hroad]

private theorem follow_known (limit : ℕ) {candidate : Vec} {index : ℕ}
    (h : (map.road? index).isSome = true) :
    (map.road? (map.follow candidate limit index)).isSome = true := by
  induction limit generalizing index with
  | zero => exact h
  | succ limit ih =>
      rw [StreetMap.follow]
      cases hnext : map.continuation? candidate index with
      | none => exact h
      | some next =>
          apply ih
          rw [StreetMap.continuation?] at hnext
          cases hroad : map.road? index with
          | none => simp [hroad] at hnext
          | some road =>
              rw [hroad] at hnext
              dsimp only at hnext
              split_ifs at hnext
              · obtain ⟨-, _, _, -, hknown, -⟩ := StreetMap.find?_touching_eq_some hnext
                rw [hknown, Option.isSome_some]
              · obtain ⟨-, _, _, -, hknown, -⟩ := StreetMap.find?_touching_eq_some hnext
                rw [hknown, Option.isSome_some]

private theorem drive_known {candidate : Vec} (h : (map.road? motion.road).isSome = true) :
    (map.road? (drive map motion candidate).road).isSome = true := by
  have hanchor : (map.road? (map.follow candidate map.roads.length motion.road)).isSome = true :=
    follow_known map.roads.length h
  unfold drive StreetMap.anchor
  dsimp only
  cases hroad : map.road? (map.follow candidate map.roads.length motion.road) with
  | none => exact h
  | some road => exact hanchor

private theorem turn_known {candidate : Vec} (h : (map.road? motion.road).isSome = true) :
    (map.road? (turn map road heading motion candidate).road).isSome = true := by
  unfold turn
  dsimp only
  split
  · exact h
  · split
    next hnext => exact Option.isSome_of_eq_some hnext
    · exact h

/-- A step never fails for want of the road, and ends on a road of the map. -/
theorem advance_known (h : (map.road? motion.road).isSome = true) :
    (∀ index, motion.advance map heading velocity time ≠ .error (.unknownRoad index)) ∧
      ∀ after, motion.advance map heading velocity time = .ok after →
        (map.road? after.road).isSome = true := by
  obtain ⟨road, hroad⟩ := Option.isSome_iff_exists.mp h
  rw [advance_eq hroad]
  split_ifs with hfinite hturn
  · constructor
    · intro index
      simp
    · intro after hafter
      rw [← Except.ok.inj hafter]
      exact turn_known h
  · constructor
    · intro index
      simp
    · intro after hafter
      rw [← Except.ok.inj hafter]
      exact drive_known h
  · constructor
    · intro index
      simp
    · intro after hafter
      cases hafter

/-- A dog keeps the commanded velocity or stops. -/
theorem velocity_of_advance (h : motion.advance map heading velocity time = .ok after) :
    after.velocity = velocity ∨ after.velocity = .zero := by
  cases hroad : map.road? motion.road with
  | none => simp [advance, hroad] at h
  | some road =>
      rw [advance_eq hroad] at h
      split_ifs at h with hfinite hturn
      · rw [← Except.ok.inj h]
        unfold turn hold enter withVelocity
        grind
      · rw [← Except.ok.inj h]
        unfold drive haltWithin withVelocity
        grind

private theorem Travels.of_withVelocity {axis : Axis} {candidate : Vec}
    (h : Travels map axis (motion.withVelocity velocity) candidate after) :
    Travels map axis motion candidate after :=
  ⟨h.anchored, h.across, h.along, h.path⟩

/-- A commanded dog that is anchored travels along one axis, that of its
heading if it has one. -/
theorem advance_travels (hroad : map.road? motion.road = some road)
    (hcontains : road.contains motion.position = true) (hcommands : heading.Commands velocity)
    (hcandidate : (motion.candidate velocity time).isFinite = true) :
    ∃ after axis, motion.advance map heading velocity time = .ok after ∧
      (∀ headed, heading.axis? = some headed → headed = axis) ∧
      Travels map axis motion (motion.candidate velocity time) after := by
  have hfinite := isFinite_component hcandidate
  rw [advance_eq hroad, if_pos hcandidate]
  by_cases hturn : heading.axis? = some road.axis.perpendicular
  · rw [if_pos hturn]
    have htravels : Travels map road.axis.perpendicular (motion.withVelocity velocity)
        (motion.candidate velocity time)
        (turn map road heading (motion.withVelocity velocity) (motion.candidate velocity time)) :=
      turn_travels hroad hcontains hcandidate
        (value_candidate_of_turn hcommands hturn (hfinite _))
    exact ⟨_, road.axis.perpendicular, rfl,
      fun headed h => Option.some.inj (h.symm.trans hturn), htravels.of_withVelocity⟩
  · rw [if_neg hturn]
    have htravels : Travels map road.axis (motion.withVelocity velocity)
        (motion.candidate velocity time)
        (drive map (motion.withVelocity velocity) (motion.candidate velocity time)) :=
      drive_travels hroad hcontains hcandidate
        (value_candidate_of_zero (hfinite _) ((hcommands _).2 hturn))
    refine ⟨_, road.axis, rfl, ?_, htravels.of_withVelocity⟩
    intro headed h
    by_contra hne
    exact hturn (h.trans (congrArg some (Axis.eq_perpendicular_of_ne hne)))

/-- A step of a commanded dog keeps it anchored. -/
theorem Anchored.advance (h : motion.Anchored map) (hcommands : heading.Commands velocity)
    (hafter : motion.advance map heading velocity time = .ok after) : after.Anchored map := by
  obtain ⟨road, hroad, hcontains⟩ := h
  have hcandidate : (motion.candidate velocity time).isFinite = true := by
    rw [advance_eq hroad] at hafter
    split_ifs at hafter with hfinite
    · exact hfinite
    · exact hfinite
  obtain ⟨after', axis, hafter', -, htravels⟩ :=
    advance_travels hroad hcontains hcommands hcandidate
  rw [hafter] at hafter'
  rw [Except.ok.inj hafter']
  exact htravels.anchored

/-! ## The passage of one step -/

end Motion

/-- On the way of the heading, `y` comes no earlier than `x`. -/
def Heading.Precedes (heading : Heading) (x y : Float) : Prop :=
  if heading.isForward then x ≤ y else y ≤ x

instance (heading : Heading) (x y : Float) : Decidable (heading.Precedes x y) :=
  inferInstanceAs (Decidable (if heading.isForward then x ≤ y else y ≤ x))

namespace Motion

/-- What a step does to a motion on its way to the candidate. -/
structure Passage (map : StreetMap) (heading : Heading) (before : Motion) (candidate : Vec)
    (after : Motion) : Prop where
  /-- Across the heading the coordinate keeps its number. -/
  across : ∀ axis : Axis, heading.axis? ≠ some axis →
    (axis.component after.position == axis.component before.position) = true
  /-- Along the heading the dog neither falls back nor overshoots. -/
  along : ∀ axis : Axis, heading.axis? = some axis →
    heading.Precedes (axis.component before.position) (axis.component after.position) ∧
      heading.Precedes (axis.component after.position) (axis.component candidate)
  /-- A stopped dog keeps its road. -/
  standing : heading = .stop → after.road = before.road
  /-- Roads in contact lead to the new anchor, and hold every point on the way. -/
  path : ∃ path, map.Way before.road after.road path ∧
    map.Covers path (segment ℝ before.position.point after.position.point)

variable {map : StreetMap} {heading : Heading} {speed : Float} {time : Duration}
  {motion after : Motion} {road : Road}

/-- A coordinate between the start and a candidate that lies on the side headed
to is passed on the way. -/
private theorem precedes_of_between {x y z : Float} (hx : x.isFinite = true)
    (hy : y.isFinite = true) (hz : z.isFinite = true)
    (hside : heading.Precedes x z) (hbetween : value y ∈ Set.uIcc (value x) (value z)) :
    heading.Precedes x y ∧ heading.Precedes y z := by
  unfold Heading.Precedes at hside ⊢
  split_ifs at hside ⊢ with hforward
  · rw [le_iff hx hz] at hside
    rw [le_iff hx hy, le_iff hy hz]
    rwa [Set.uIcc_of_le hside] at hbetween
  · rw [le_iff hz hx] at hside
    rw [le_iff hy hx, le_iff hz hy]
    rw [Set.uIcc_of_ge hside] at hbetween
    exact hbetween.symm

/-- The candidate lies on the side headed to. -/
theorem precedes_candidate {axis : Axis} (hspeed : speed.isFinite = true)
    (hnonneg : (0.0 : Float) ≤ speed) (haxis : heading.axis? = some axis)
    (hposition : (axis.component motion.position).isFinite = true)
    (hcandidate :
      (axis.component (motion.candidate (heading.velocity speed) time)).isFinite = true) :
    heading.Precedes (axis.component motion.position)
      (axis.component (motion.candidate (heading.velocity speed) time)) := by
  have hvelocity := (heading.velocity_exact axis hspeed).2
  rw [le_iff zero_exact.1 hspeed, zero_exact.2] at hnonneg
  rw [Heading.sign, if_pos haxis] at hvelocity
  rw [Heading.Precedes]
  split_ifs at hvelocity ⊢
  · rw [le_iff hposition hcandidate]
    apply value_le_candidate hcandidate
    rwa [hvelocity, one_mul]
  · rw [le_iff hcandidate hposition]
    apply candidate_le_value hcandidate
    rw [hvelocity, neg_one_mul]
    exact neg_nonpos.mpr hnonneg

/-- A stopped dog that is anchored stays anchored to its road. -/
private theorem road_of_stop {velocity : Vec} (hroad : map.road? motion.road = some road)
    (hcontains : road.contains motion.position = true)
    (hcommands : Heading.stop.Commands velocity)
    (hafter : motion.advance map .stop velocity time = .ok after) :
    after.road = motion.road := by
  have hnone : Heading.stop.axis? ≠ some road.axis.perpendicular := nofun
  rw [advance_eq hroad, if_neg hnone] at hafter
  split_ifs at hafter with hcandidate
  have hfinite := isFinite_component hcandidate road.axis
  have hwithin : road.Within road.axis
      (road.axis.component (motion.candidate velocity time)) := by
    have hvalue := value_candidate_of_zero hfinite ((hcommands road.axis).2 nofun)
    obtain ⟨-, hbelow, habove⟩ := within_of_contains hcontains road.axis
    exact ⟨hfinite, by rwa [hvalue], by rwa [hvalue]⟩
  have hanchor := StreetMap.anchor_of_within hroad hwithin
  rw [← Except.ok.inj hafter, drive]
  have hroad' : map.road? (map.anchor (motion.candidate velocity time)
      (motion.withVelocity velocity).road) = some road := by
    rwa [withVelocity, hanchor]
  rw [hroad']
  exact hanchor

/-- No step of a commanded dog teleports it or takes it off the roads. -/
theorem advance_passage (hroad : map.road? motion.road = some road)
    (hcontains : road.contains motion.position = true) (hspeed : speed.isFinite = true)
    (hnonneg : (0.0 : Float) ≤ speed)
    (hcandidate : (motion.candidate (heading.velocity speed) time).isFinite = true) :
    ∃ after, motion.advance map heading (heading.velocity speed) time = .ok after ∧
      Passage map heading motion (motion.candidate (heading.velocity speed) time) after := by
  have hcommands := heading.commands_velocity hspeed
  obtain ⟨after, axis, hafter, haxis, htravels⟩ :=
    advance_travels hroad hcontains hcommands hcandidate
  have hbefore := isFinite_component (Road.isFinite_of_contains hcontains)
  have hfinite := isFinite_component hcandidate
  obtain ⟨_, -, hcontainsAfter⟩ := htravels.anchored
  have hafterFinite := isFinite_component (Road.isFinite_of_contains hcontainsAfter)
  refine ⟨after, hafter, ?_, ?_, ?_, htravels.path⟩
  · rw [Axis.forall_iff axis, beq_iff (hafterFinite _) (hbefore _),
      beq_iff (hafterFinite _) (hbefore _)]
    refine ⟨fun hother => ?_, fun _ => htravels.across⟩
    have halong := htravels.along
    rw [value_candidate_of_zero (hfinite axis) ((hcommands axis).2 hother),
      Set.uIcc_self] at halong
    exact halong
  · intro other hother
    obtain rfl := haxis other hother
    exact precedes_of_between (hbefore other) (hafterFinite other) (hfinite other)
      (precedes_candidate hspeed hnonneg hother (hbefore other) (hfinite other)) htravels.along
  · rintro rfl
    exact road_of_stop hroad hcontains hcommands hafter

/-- A dog near the end of the first road, off its centre line, on its way east. -/
theorem advance_passage_two_roads :
    ∃ after, (Motion.mk 0 ⟨9.5, 0.25⟩ .zero).advance .threeRoads .east
        (Heading.east.velocity 2.0) ⟨3000000000⟩ = .ok after ∧
      Passage .threeRoads .east ⟨0, ⟨9.5, 0.25⟩, .zero⟩
        ((Motion.mk 0 ⟨9.5, 0.25⟩ .zero).candidate (Heading.east.velocity 2.0) ⟨3000000000⟩)
        after := by
  have hroad : StreetMap.threeRoads.road? 0 = some (.horizontal ⟨0, 0⟩ 10) := rfl
  exact advance_passage hroad (by decide +kernel) (by decide +kernel) (by decide +kernel)
    (by decide +kernel)

end Motion

end StreetDogs
