import StreetDogs.Motion.Advance
import StreetDogs.Proofs.Motion.Box

/-!
# Candidates

Where a dog would get to without roads.  A velocity that follows a heading is
zero across the axis of the heading and has the sign of the heading along it.
Sums are rounded, but rounding is monotone: the candidate has the old
coordinate across the axis and lies on the side headed to along it.
-/

namespace StreetDogs

open Binary Binary64

namespace Heading

def sign (heading : Heading) (axis : Axis) : ℚ :=
  if heading.axis? = some axis then (if heading.isForward then 1 else -1) else 0

private theorem neg_one_exact : (-1.0 : Float).isFinite = true ∧ value (-1.0) = -1 := by
  rw [isFinite_neg, value_neg, one_exact.2]
  exact ⟨one_exact.1, rfl⟩

theorem unit_exact (heading : Heading) (axis : Axis) :
    (axis.component heading.unit).isFinite = true ∧
      value (axis.component heading.unit) = heading.sign axis := by
  cases heading <;> cases axis <;>
    first
    | exact zero_exact
    | exact one_exact
    | exact neg_one_exact

theorem sign_cases (heading : Heading) (axis : Axis) :
    heading.sign axis = 0 ∨ heading.sign axis = 1 ∨ heading.sign axis = -1 := by
  cases heading <;> cases axis <;> decide

/-- The velocity of a heading is exact: its coordinates are zero and plus or
minus the speed. -/
theorem velocity_exact (heading : Heading) (axis : Axis) {speed : Float}
    (hspeed : speed.isFinite = true) :
    (axis.component (heading.velocity speed)).isFinite = true ∧
      value (axis.component (heading.velocity speed)) = heading.sign axis * value speed := by
  obtain ⟨hunit, hsign⟩ := heading.unit_exact axis
  have hrounds := mul_roundsTo hunit hspeed
  rw [velocity, Axis.component_mul]
  rw [hsign] at hrounds
  have hbound := abs_value_lt_limit speed
  have hspeed' := representable_value speed
  rcases heading.sign_cases axis with hzero | hone | hneg
  · rw [hzero, zero_mul] at hrounds ⊢
    exact_mod_cast RoundsTo.exact_intCast (n := 0) (by exact_mod_cast hrounds) (by norm_num)
  · rw [hone, one_mul] at hrounds ⊢
    exact hrounds.exact hspeed' hbound
  · rw [hneg, neg_one_mul] at hrounds ⊢
    exact hrounds.exact hspeed'.neg (by rwa [abs_neg])

/-- A finite velocity that is zero across the axis of the heading.  This is
what a dog keeps of its last command. -/
def Commands (heading : Heading) (velocity : Vec) : Prop :=
  ∀ axis : Axis, (axis.component velocity).isFinite = true ∧
    (heading.axis? ≠ some axis → value (axis.component velocity) = 0)

theorem commands_velocity (heading : Heading) {speed : Float} (hspeed : speed.isFinite = true) :
    heading.Commands (heading.velocity speed) := by
  intro axis
  obtain ⟨hfinite, hvalue⟩ := heading.velocity_exact axis hspeed
  constructor
  · exact hfinite
  · intro haxis
    rw [hvalue, sign, if_neg haxis, zero_mul]

theorem commands_zero (heading : Heading) : heading.Commands .zero := by
  intro axis
  cases axis <;> exact ⟨zero_exact.1, fun _ => zero_exact.2⟩

end Heading

namespace Motion

variable {motion : Motion} {velocity : Vec} {time : Duration} {axis : Axis}

theorem component_candidate (motion : Motion) (velocity : Vec) (time : Duration) (axis : Axis) :
    axis.component (motion.candidate velocity time) =
      axis.component motion.position + axis.component velocity * time.inSeconds := by
  rw [candidate, Axis.component_add, Axis.component_mul]

/-- A finite candidate is the rounded sum of the position and the rounded
distance. -/
theorem value_candidate (h : (axis.component (motion.candidate velocity time)).isFinite = true) :
    0 ≤ value time.inSeconds ∧
      value (axis.component (motion.candidate velocity time)) =
        nearest .binary64 (value (axis.component motion.position) +
          nearest .binary64 (value (axis.component velocity) * value time.inSeconds)) := by
  rw [component_candidate] at h ⊢
  obtain ⟨hposition, hdistance⟩ := isFinite_of_add h
  obtain ⟨hvelocity, htime⟩ := isFinite_of_mul hdistance
  refine ⟨Duration.value_inSeconds_nonneg htime, ?_⟩
  rw [(add_roundsTo hposition hdistance).value_eq h,
    (mul_roundsTo hvelocity htime).value_eq hdistance]

theorem value_candidate_of_zero
    (h : (axis.component (motion.candidate velocity time)).isFinite = true)
    (hzero : value (axis.component velocity) = 0) :
    value (axis.component (motion.candidate velocity time)) =
      value (axis.component motion.position) := by
  rw [(value_candidate h).2, hzero, zero_mul, nearest_zero, add_zero, nearest_value]

/-- A turn keeps the coordinate along the road that it leaves. -/
theorem value_candidate_of_turn {heading : Heading} (hcommands : heading.Commands velocity)
    (hturn : heading.axis? = some axis.perpendicular)
    (h : (axis.component (motion.candidate velocity time)).isFinite = true) :
    value (axis.component (motion.candidate velocity time)) =
      value (axis.component motion.position) := by
  have hacross : heading.axis? ≠ some axis := by
    rw [hturn, Option.some_inj.ne]
    exact axis.perpendicular_ne
  exact value_candidate_of_zero h ((hcommands axis).2 hacross)

theorem value_le_candidate
    (h : (axis.component (motion.candidate velocity time)).isFinite = true)
    (hvelocity : 0 ≤ value (axis.component velocity)) :
    value (axis.component motion.position) ≤
      value (axis.component (motion.candidate velocity time)) := by
  obtain ⟨htime, hcandidate⟩ := value_candidate h
  have hdistance :
      0 ≤ nearest .binary64 (value (axis.component velocity) * value time.inSeconds) :=
    nearest_nonneg (mul_nonneg hvelocity htime)
  calc
    value (axis.component motion.position) =
        nearest .binary64 (value (axis.component motion.position)) := (nearest_value _).symm
    _ ≤ nearest .binary64 (value (axis.component motion.position) +
          nearest .binary64 (value (axis.component velocity) * value time.inSeconds)) :=
      nearest_mono (le_add_of_nonneg_right hdistance)
    _ = value (axis.component (motion.candidate velocity time)) := hcandidate.symm

theorem candidate_le_value
    (h : (axis.component (motion.candidate velocity time)).isFinite = true)
    (hvelocity : value (axis.component velocity) ≤ 0) :
    value (axis.component (motion.candidate velocity time)) ≤
      value (axis.component motion.position) := by
  obtain ⟨htime, hcandidate⟩ := value_candidate h
  have hdistance :
      nearest .binary64 (value (axis.component velocity) * value time.inSeconds) ≤ 0 := by
    rw [← nearest_zero]
    exact nearest_mono (mul_nonpos_of_nonpos_of_nonneg hvelocity htime)
  calc
    value (axis.component (motion.candidate velocity time)) =
        nearest .binary64 (value (axis.component motion.position) +
          nearest .binary64 (value (axis.component velocity) * value time.inSeconds)) := hcandidate
    _ ≤ nearest .binary64 (value (axis.component motion.position)) :=
      nearest_mono (add_le_of_nonpos_right hdistance)
    _ = value (axis.component motion.position) := nearest_value _

end Motion

end StreetDogs
