import StreetDogs.Motion.Drive
import StreetDogs.Motion.Turn

/-!
# One step of motion

A step moves a dog with a velocity for some time: straight on when its heading
is parallel to the anchored road or it has none, otherwise by a turn.
-/

namespace StreetDogs.Motion

/-- Where a dog would get to without roads. -/
def candidate (motion : Motion) (velocity : Vec) (time : Duration) : Vec :=
  motion.position + velocity * time.inSeconds

/-- Moves for `time` with the commanded heading and velocity.  A motion that is
refused changes nothing. -/
def advance (map : StreetMap) (heading : Heading) (velocity : Vec) (time : Duration)
    (motion : Motion) : Except MotionError Motion :=
  match map.road? motion.road with
  | none => .error (.unknownRoad motion.road)
  | some road =>
    let candidate := motion.candidate velocity time
    if !candidate.isFinite then
      .error .nonFinitePosition
    else
      let motion := motion.withVelocity velocity
      if heading.axis?.any (· != road.axis) then
        .ok (turn map road heading motion candidate)
      else
        .ok (drive map motion candidate)

end StreetDogs.Motion
