import StreetDogs.Motion.InPlace
import StreetDogs.Proofs.Motion.Advance

/-!
# Steps as clamps

Driving and being held on a road clamp one coordinate, entering a road clamps
both.  Where the other coordinate lies between the edges of the road these are
the same, so every step brings the candidate into the box of the road the dog
ends up on, and takes the velocity away exactly when that moved the candidate.
A step that is refused leaves the motion as it was.
-/

namespace StreetDogs

open Binary64

/-- Vectors with the same coordinates along an axis and across it are equal. -/
theorem Vec.eq_of_components (axis : Axis) {u v : Vec}
    (halong : axis.component u = axis.component v)
    (hacross : axis.perpendicular.component u = axis.perpendicular.component v) : u = v := by
  obtain ⟨ux, uy⟩ := u
  obtain ⟨vx, vy⟩ := v
  cases axis with
  | horizontal => exact congrArg₂ Vec.mk halong hacross
  | vertical => exact congrArg₂ Vec.mk hacross halong

namespace Road

def limit (road : Road) (axis : Axis) (x : Float) : Float :=
  clampTo (Coord.real (road.extent axis).1 - halfWidth)
    (Coord.real (road.extent axis).2 + halfWidth) x

variable {road : Road} {axis : Axis} {position : Vec}

/-- With the coordinate across an axis on the road, clamping replaces only the
one along the axis. -/
theorem clamp_eq_withComponent
    (h : road.Within axis.perpendicular (axis.perpendicular.component position)) :
    road.clamp position =
      axis.withComponent position (road.limit axis (axis.component position)) := by
  apply Vec.eq_of_components axis
  · rw [component_clamp, Axis.component_withComponent, limit]
  · rw [component_clamp, clampTo_of_within h, Axis.perpendicular_component_withComponent]

/-- With the coordinate across an axis on the road, clamping moves the position
exactly when it replaces the one along the axis by another number. -/
theorem moves_eq_not_beq
    (h : road.Within axis.perpendicular (axis.perpendicular.component position)) :
    road.moves position =
      !(road.limit axis (axis.component position) == axis.component position) := by
  rw [moves]
  congr 1
  rw [Bool.eq_iff_iff, limit, clampTo_extent_beq_iff, ← Bool.not_not (road.clamp position == _),
    ← moves, ← contains, contains_iff, Axis.forall_iff axis]
  exact and_iff_left h

end Road

namespace Motion

/-- The coordinate along an axis is brought between the edges of the road, and a
dog that is held back stops. -/
def haltAlong (road : Road) (axis : Axis) (index : ℕ) (candidate velocity : Vec) : Motion where
  road := index
  position := axis.withComponent candidate (road.limit axis (axis.component candidate))
  velocity :=
    if road.limit axis (axis.component candidate) == axis.component candidate then velocity
    else .zero

variable {map : StreetMap} {heading : Heading} {velocity candidate : Vec} {time : Duration}
  {motion : Motion} {road : Road} {index : ℕ}

theorem haltWithin_eq_haltAlong :
    haltWithin road index candidate velocity =
      haltAlong road road.axis index candidate velocity := by
  rw [haltWithin, haltAlong, Road.limit, Road.extent_axis]

theorem hold_eq_haltAlong :
    hold road motion candidate =
      haltAlong road road.axis.perpendicular motion.road candidate motion.velocity := by
  rw [hold, haltAlong, Road.limit, Road.extent_perpendicular]

private theorem enter_eq_haltAlong (axis : Axis)
    (h : road.Within axis.perpendicular (axis.perpendicular.component candidate)) :
    enter road index candidate velocity = haltAlong road axis index candidate velocity := by
  rw [enter, haltAlong, Road.clamp_eq_withComponent h, Road.moves_eq_not_beq h]
  congr 1
  cases road.limit axis (axis.component candidate) == axis.component candidate <;> rfl

theorem haltWithin_eq_enter
    (h : road.Within road.axis.perpendicular (road.axis.perpendicular.component candidate)) :
    haltWithin road index candidate velocity = enter road index candidate velocity := by
  rw [haltWithin_eq_haltAlong, enter_eq_haltAlong road.axis h]

theorem hold_eq_enter (h : road.Within road.axis (road.axis.component candidate)) :
    hold road motion candidate = enter road motion.road candidate motion.velocity := by
  rw [hold_eq_haltAlong,
    enter_eq_haltAlong road.axis.perpendicular (by rwa [Axis.perpendicular_perpendicular])]

/-- A candidate with the coordinate of a position on a road has that coordinate
on the road. -/
private theorem within_candidate (hcontains : road.contains motion.position = true)
    (hcandidate : candidate.isFinite = true) {axis : Axis}
    (hkept : value (axis.component candidate) = value (axis.component motion.position)) :
    road.Within axis (axis.component candidate) :=
  within_of_value_eq (isFinite_component hcandidate axis) (within_of_contains hcontains axis) hkept

theorem drive_eq_enter (hroad : map.road? motion.road = some road)
    (hcontains : road.contains motion.position = true) (hcandidate : candidate.isFinite = true)
    (hacross : value (road.axis.perpendicular.component candidate) =
      value (road.axis.perpendicular.component motion.position)) :
    ∃ index next, map.road? index = some next ∧
      drive map motion candidate = enter next index candidate motion.velocity := by
  obtain ⟨last, path, -, hlast, hline, -, -⟩ :=
    StreetMap.follow_lineWay map.roads.length hroad (isFinite_component hcandidate road.axis)
  refine ⟨_, last, hlast, ?_⟩
  have hwithin := within_candidate hcontains hcandidate hacross
  rw [Road.Within, ← hline.extent_perpendicular, ← Road.Within, ← hline.1] at hwithin
  rw [drive, StreetMap.anchor, hlast]
  exact haltWithin_eq_enter hwithin

theorem turn_eq_enter (heading : Heading) (hroad : map.road? motion.road = some road)
    (hcontains : road.contains motion.position = true) (hcandidate : candidate.isFinite = true)
    (hacross : value (road.axis.component candidate) =
      value (road.axis.component motion.position)) :
    ∃ index next, map.road? index = some next ∧
      turn map road heading motion candidate = enter next index candidate motion.velocity := by
  have hhold : hold road motion candidate = enter road motion.road candidate motion.velocity :=
    hold_eq_enter (within_candidate hcontains hcandidate hacross)
  unfold turn
  dsimp only
  cases (map.crossingAhead? motion.road road heading candidate).or
      (map.crossingAt? motion.road road candidate) with
  | none => exact ⟨motion.road, road, hroad, hhold⟩
  | some index =>
      dsimp only
      cases hnext : map.road? index with
      | none => exact ⟨motion.road, road, hroad, hhold⟩
      | some next => exact ⟨index, next, hnext, rfl⟩

/-- Every step of an anchored dog clamps the candidate once, into the box of the
road it ends up on. -/
theorem advance_eq_enter (hroad : map.road? motion.road = some road)
    (hcontains : road.contains motion.position = true) (hcommands : heading.Commands velocity)
    (hcandidate : (motion.candidate velocity time).isFinite = true) :
    ∃ index next, map.road? index = some next ∧
      motion.advance map heading velocity time =
        .ok (enter next index (motion.candidate velocity time) velocity) := by
  have hfinite := isFinite_component hcandidate
  have hroad' : map.road? (motion.withVelocity velocity).road = some road := hroad
  rw [advance_eq hroad, if_pos hcandidate]
  by_cases hturn : heading.axis? = some road.axis.perpendicular
  · rw [if_pos hturn]
    obtain ⟨index, next, hnext, henter⟩ := turn_eq_enter heading hroad' hcontains hcandidate
      (value_candidate_of_turn hcommands hturn (hfinite _))
    exact ⟨index, next, hnext, congrArg Except.ok henter⟩
  · rw [if_neg hturn]
    obtain ⟨index, next, hnext, henter⟩ := drive_eq_enter hroad' hcontains hcandidate
      (value_candidate_of_zero (hfinite _) ((hcommands _).2 hturn))
    exact ⟨index, next, hnext, congrArg Except.ok henter⟩

/-- In place a step comes to the same, and a refusal changes nothing. -/
theorem move_eq (map : StreetMap) (heading : Heading) (velocity : Vec) (time : Duration)
    (motion : Motion) :
    move map heading velocity time motion =
      match motion.advance map heading velocity time with
      | .ok after => .ok () after
      | .error error => .error error motion := by
  rw [advance, move]
  simp only [bind, EStateM.bind, get, getThe, MonadStateOf.get, EStateM.get]
  cases map.road? motion.road with
  | none => rfl
  | some road =>
      dsimp only
      split_ifs <;> rfl

private theorem move_of_refused {error : MotionError}
    (h : motion.advance map heading velocity time = .error error) :
    move map heading velocity time motion = .error error motion := by
  rw [move_eq, h]

/-- With a finite speed, a step of an anchored dog brings the candidate into the
box of the road it ends up on, and takes the velocity away exactly when that
moved the candidate.  At any velocity a step is refused for want of the road or
of a finite candidate, and the motion is as before. -/
theorem move_clamps (map : StreetMap) (heading : Heading) (time : Duration) (motion : Motion) :
    (∀ speed : Float, speed.isFinite = true →
      let velocity := heading.velocity speed
      let candidate := motion.candidate velocity time
      ∀ road, map.road? motion.road = some road → road.contains motion.position = true →
        candidate.isFinite = true →
      ∃ after next, motion.advance map heading velocity time = .ok after ∧
        move map heading velocity time motion = .ok () after ∧
        map.road? after.road = some next ∧ after.position = next.clamp candidate ∧
        after.velocity = if next.moves candidate then .zero else velocity) ∧
    (∀ velocity road, map.road? motion.road = some road →
        (motion.candidate velocity time).isFinite = false →
      motion.advance map heading velocity time = .error .nonFinitePosition ∧
        move map heading velocity time motion = .error .nonFinitePosition motion) ∧
    (∀ velocity, map.road? motion.road = none →
      motion.advance map heading velocity time = .error (.unknownRoad motion.road) ∧
        move map heading velocity time motion = .error (.unknownRoad motion.road) motion) := by
  refine ⟨?_, ?_, ?_⟩
  · intro speed hspeed velocity candidate road hroad hcontains hcandidate
    obtain ⟨index, next, hnext, hadvance⟩ :=
      advance_eq_enter hroad hcontains (heading.commands_velocity hspeed) hcandidate
    have hmove := move_eq map heading velocity time motion
    rw [hadvance] at hmove
    exact ⟨_, next, hadvance, hmove, hnext, rfl, rfl⟩
  · intro velocity road hroad hcandidate
    have hadvance : motion.advance map heading velocity time = .error .nonFinitePosition := by
      rw [advance_eq hroad, if_neg (Bool.eq_false_iff.mp hcandidate)]
    exact ⟨hadvance, move_of_refused hadvance⟩
  · intro velocity hroad
    exact ⟨advance_eq_unknownRoad hroad, move_of_refused (advance_eq_unknownRoad hroad)⟩

/-- A dog that drives over two roads to the end of the second one, at a finite
speed: what a step comes to on the way there, at a speed that overflows, and on
an unknown road. -/
theorem move_clamps_threeRoads :
    (25.0 : Float).isFinite = true ∧
      (∃ after next, (Motion.mk 0 ⟨9.5, 0.25⟩ .zero).advance .threeRoads .east
          (Heading.east.velocity 25.0) ⟨1000000000⟩ = .ok after ∧
        StreetMap.threeRoads.road? after.road = some next ∧
        after.position = next.clamp ((Motion.mk 0 ⟨9.5, 0.25⟩ .zero).candidate
          (Heading.east.velocity 25.0) ⟨1000000000⟩) ∧
        after.velocity = if next.moves ((Motion.mk 0 ⟨9.5, 0.25⟩ .zero).candidate
          (Heading.east.velocity 25.0) ⟨1000000000⟩) then .zero
          else Heading.east.velocity 25.0) ∧
      move .threeRoads .east ⟨1e308, 0⟩ ⟨20000000000⟩ ⟨0, ⟨9.5, 0.25⟩, .zero⟩ =
        .error .nonFinitePosition ⟨0, ⟨9.5, 0.25⟩, .zero⟩ ∧
      move .threeRoads .east ⟨3.0, 4.0⟩ ⟨1000000000⟩ ⟨7, ⟨9.5, 0.25⟩, .zero⟩ =
        .error (.unknownRoad 7) ⟨7, ⟨9.5, 0.25⟩, .zero⟩ := by
  have hspeed : (25.0 : Float).isFinite = true := by decide +kernel
  have hroad : StreetMap.threeRoads.road? 0 = some (.horizontal ⟨0, 0⟩ 10) := rfl
  have hclamped := (move_clamps .threeRoads .east ⟨1000000000⟩ ⟨0, ⟨9.5, 0.25⟩, .zero⟩).1 25.0
    hspeed _ hroad (by decide +kernel) (by decide +kernel)
  have hoverflow := (move_clamps .threeRoads .east ⟨20000000000⟩ ⟨0, ⟨9.5, 0.25⟩, .zero⟩).2.1
    ⟨1e308, 0⟩ _ hroad (by decide +kernel)
  have hunknown := (move_clamps .threeRoads .east ⟨1000000000⟩ ⟨7, ⟨9.5, 0.25⟩, .zero⟩).2.2
    ⟨3.0, 4.0⟩ rfl
  obtain ⟨after, next, hadvance, -, hnext, hposition, hvelocity⟩ := hclamped
  exact ⟨hspeed, ⟨after, next, hadvance, hnext, hposition, hvelocity⟩, hoverflow.2, hunknown.2⟩

end Motion

end StreetDogs
