import StreetDogs.Motion.Advance

/-!
# Motion in place

A dog keeps one motion and changes it step by step.  Whatever a step may be
refused for is looked at before anything is changed.
-/

namespace StreetDogs.Motion

/-- A computation that changes a motion in place.  An error ends it and leaves
the motion as it is by then. -/
abbrev Moving := EStateM MotionError Motion

/-- Moves in place: the velocity is set first, then the dog turns or drives. -/
def move (map : StreetMap) (heading : Heading) (velocity : Vec) (time : Duration) :
    Moving Unit := do
  let motion ← get
  match map.road? motion.road with
  | none => throw (.unknownRoad motion.road)
  | some road =>
    let candidate := motion.candidate velocity time
    if !candidate.isFinite then
      throw .nonFinitePosition
    else
      modify (·.withVelocity velocity)
      if heading.axis?.any (· != road.axis) then
        modify fun motion => turn map road heading motion candidate
      else
        modify fun motion => drive map motion candidate

end StreetDogs.Motion
