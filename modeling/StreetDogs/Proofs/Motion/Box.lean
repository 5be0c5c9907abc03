import StreetDogs.Proofs.Binary64.Conversion
import StreetDogs.Proofs.Binary64.Order

/-!
# Widened boxes

The box of a road reaches from the low edge of its least coordinate to the high
edge of its greatest one, along either axis.  Edges are rounded sums, so they
are described by rounding; they grow with the coordinate and lie on their own
side of it.  A position is contained in a road exactly when both its
coordinates are finite and between the edges.
-/

namespace StreetDogs

open Binary Binary64

namespace Coord

theorem abs_toInt_le (c : Coord) : |c.toInt| ≤ 2 ^ 31 := by
  have hlow := c.le_toInt
  have hhigh := c.toInt_lt
  exact abs_le.mpr (by constructor <;> omega)

theorem toInt_min (c d : Coord) : (min c d).toInt = min c.toInt d.toInt := by
  have hmin : min c d = if c ≤ d then c else d := rfl
  rw [hmin, min_def]
  simp only [Int32.le_iff_toInt_le]
  split_ifs <;> rfl

theorem toInt_max (c d : Coord) : (max c d).toInt = max c.toInt d.toInt := by
  have hmax : max c d = if c ≤ d then d else c := rfl
  rw [hmax, max_def]
  simp only [Int32.le_iff_toInt_le]
  split_ifs <;> rfl

end Coord

def halfWidthValue : ℚ := value halfWidth

theorem halfWidthValue_eq : halfWidthValue = 3602879701896397 / 2 ^ 53 := halfWidth_exact.2

theorem halfWidthValue_nonneg : 0 ≤ halfWidthValue := by
  rw [halfWidthValue_eq]
  positivity

theorem halfWidthValue_lt_half : halfWidthValue < 1 / 2 := by
  rw [halfWidthValue_eq]
  norm_num

/-- How far the box of a road reaches below the coordinate. -/
def lowEdge (c : Coord) : ℚ := nearest .binary64 (c.toInt - halfWidthValue)

/-- How far the box of a road reaches above the coordinate. -/
def highEdge (c : Coord) : ℚ := nearest .binary64 (c.toInt + halfWidthValue)

private theorem abs_nearest_lt_limit {q : ℚ} (hq : |q| ≤ 2 ^ 52) :
    |nearest .binary64 q| < limit .binary64 := by
  have hpower : nearest .binary64 (2 ^ 52) = 2 ^ 52 :=
    nearest_of_representable ⟨1, 52, by norm_num, by norm_num, by norm_num⟩
  have habove : nearest .binary64 q ≤ 2 ^ 52 := (nearest_mono (abs_le.mp hq).2).trans_eq hpower
  have hbelow : -2 ^ 52 ≤ nearest .binary64 q := by
    rw [← hpower, ← nearest_neg]
    exact nearest_mono (abs_le.mp hq).1
  exact abs_lt_limit_of_abs_lt ((abs_le.mpr ⟨hbelow, habove⟩).trans_lt (by norm_num))

private theorem abs_coord_le (c : Coord) : |(c.toInt : ℚ)| ≤ 2 ^ 31 := by
  exact_mod_cast c.abs_toInt_le

theorem lowEdge_exact (c : Coord) :
    (Coord.real c - halfWidth).isFinite = true ∧ value (Coord.real c - halfWidth) = lowEdge c := by
  have hrounds := sub_roundsTo (Coord.real_exact c).1 halfWidth_exact.1
  rw [(Coord.real_exact c).2] at hrounds
  apply hrounds.finite
  apply abs_nearest_lt_limit
  have hc := abs_le.mp (abs_coord_le c)
  rw [halfWidth_exact.2, abs_le]
  constructor <;> linarith

theorem highEdge_exact (c : Coord) :
    (Coord.real c + halfWidth).isFinite = true ∧
      value (Coord.real c + halfWidth) = highEdge c := by
  have hrounds := add_roundsTo (Coord.real_exact c).1 halfWidth_exact.1
  rw [(Coord.real_exact c).2] at hrounds
  apply hrounds.finite
  apply abs_nearest_lt_limit
  have hc := abs_le.mp (abs_coord_le c)
  rw [halfWidth_exact.2, abs_le]
  constructor <;> linarith

private theorem nearest_coord (c : Coord) : nearest .binary64 (c.toInt : ℚ) = c.toInt := by
  rw [← (Coord.real_exact c).2, nearest_value]

theorem lowEdge_le (c : Coord) : lowEdge c ≤ c.toInt := by
  rw [← nearest_coord c]
  exact nearest_mono (sub_le_self _ halfWidthValue_nonneg)

theorem le_highEdge (c : Coord) : (c.toInt : ℚ) ≤ highEdge c := by
  rw [← nearest_coord c]
  exact nearest_mono (le_add_of_nonneg_right halfWidthValue_nonneg)

theorem lowEdge_mono {c d : Coord} (h : c ≤ d) : lowEdge c ≤ lowEdge d := by
  apply nearest_mono
  have hcast : (c.toInt : ℚ) ≤ d.toInt := by exact_mod_cast Int32.le_iff_toInt_le.mp h
  exact sub_le_sub_right hcast _

theorem highEdge_mono {c d : Coord} (h : c ≤ d) : highEdge c ≤ highEdge d := by
  apply nearest_mono
  have hcast : (c.toInt : ℚ) ≤ d.toInt := by exact_mod_cast Int32.le_iff_toInt_le.mp h
  exact add_le_add_left hcast _

theorem lowEdge_le_highEdge {c d : Coord} (h : c ≤ d) : lowEdge c ≤ highEdge d := by
  have hcast : (c.toInt : ℚ) ≤ d.toInt := by exact_mod_cast Int32.le_iff_toInt_le.mp h
  exact (lowEdge_le c).trans (hcast.trans (le_highEdge d))

namespace Axis

@[simp]
theorem perpendicular_perpendicular (axis : Axis) : axis.perpendicular.perpendicular = axis := by
  cases axis <;> rfl

theorem perpendicular_ne (axis : Axis) : axis.perpendicular ≠ axis := by
  cases axis <;> decide

theorem eq_perpendicular_of_ne {a b : Axis} (h : a ≠ b) : a = b.perpendicular := by
  cases a <;> cases b
  · exact absurd rfl h
  · rfl
  · rfl
  · exact absurd rfl h

@[simp]
theorem component_withComponent (axis : Axis) (v : Vec) (x : Float) :
    axis.component (axis.withComponent v x) = x := by
  cases axis <;> rfl

@[simp]
theorem perpendicular_component_withComponent (axis : Axis) (v : Vec) (x : Float) :
    axis.perpendicular.component (axis.withComponent v x) = axis.perpendicular.component v := by
  cases axis <;> rfl

@[simp]
theorem component_perpendicular_withComponent (axis : Axis) (v : Vec) (x : Float) :
    axis.component (axis.perpendicular.withComponent v x) = axis.component v := by
  cases axis <;> rfl

theorem component_add (axis : Axis) (u v : Vec) :
    axis.component (u + v) = axis.component u + axis.component v := by
  cases axis <;> rfl

theorem component_mul (axis : Axis) (v : Vec) (x : Float) :
    axis.component (v * x) = axis.component v * x := by
  cases axis <;> rfl

/-- What holds of one axis and of the one across it holds of every axis. -/
theorem forall_iff (axis : Axis) {p : Axis → Prop} :
    (∀ other, p other) ↔ p axis ∧ p axis.perpendicular := by
  constructor
  · intro h
    exact ⟨h axis, h axis.perpendicular⟩
  · rintro ⟨halong, hacross⟩ other
    by_cases hother : other = axis
    · rwa [hother]
    · rwa [eq_perpendicular_of_ne hother]

end Axis

namespace Vec

theorem isFinite_iff (v : Vec) :
    v.isFinite = true ↔ ∀ axis : Axis, (axis.component v).isFinite = true := by
  rw [isFinite, Bool.and_eq_true, Axis.forall_iff .horizontal]
  rfl

theorem beq_iff (u v : Vec) :
    (u == v) = true ↔ ∀ axis : Axis, (axis.component u == axis.component v) = true := by
  change (u.x == v.x && u.y == v.y) = true ↔ _
  rw [Bool.and_eq_true, Axis.forall_iff .horizontal]
  rfl

end Vec

/-! ## Boxes -/

namespace Road

/-- The least and the greatest coordinate of a road along an axis. -/
def extent (road : Road) (axis : Axis) : Coord × Coord :=
  if axis = road.axis then (road.low, road.high) else (road.fixed, road.fixed)

theorem extent_axis (road : Road) : road.extent road.axis = (road.low, road.high) := by
  rw [extent, if_pos rfl]

theorem extent_perpendicular (road : Road) :
    road.extent road.axis.perpendicular = (road.fixed, road.fixed) := by
  rw [extent, if_neg road.axis.perpendicular_ne]

private theorem coord_min_le_max (c d : Coord) : min c d ≤ max c d := by
  rw [Int32.le_iff_toInt_le, Coord.toInt_min, Coord.toInt_max]
  exact min_le_max

theorem low_le_high (road : Road) : road.low ≤ road.high := coord_min_le_max _ _

theorem extent_fst_le_snd (road : Road) (axis : Axis) :
    (road.extent axis).1 ≤ (road.extent axis).2 := by
  rw [extent]
  split_ifs
  · exact road.low_le_high
  · exact Int32.le_refl _

private theorem min_self (c : Coord) : min c c = c := by
  change (if c ≤ c then c else c) = c
  rw [ite_self]

private theorem max_self (c : Coord) : max c c = c := by
  change (if c ≤ c then c else c) = c
  rw [ite_self]

/-- Clamping into the box clamps either coordinate into the extent widened by
the half-width. -/
theorem component_clamp (road : Road) (axis : Axis) (position : Vec) :
    axis.component (road.clamp position) =
      clampTo (Coord.real (road.extent axis).1 - halfWidth)
        (Coord.real (road.extent axis).2 + halfWidth) (axis.component position) := by
  obtain ⟨roadAxis, start, stop⟩ := road
  cases roadAxis <;> cases axis <;>
    simp [Axis.component, clamp, extent, xRange, yRange, finish, low, high, fixed, Axis.coord,
      Axis.perpendicular, min_self, max_self]

/-- The coordinate is finite and lies between the edges of the road along the
axis. -/
def Within (road : Road) (axis : Axis) (x : Float) : Prop :=
  x.isFinite = true ∧
    lowEdge (road.extent axis).1 ≤ value x ∧ value x ≤ highEdge (road.extent axis).2

theorem clampTo_extent_beq_iff (road : Road) (axis : Axis) (x : Float) :
    (clampTo (Coord.real (road.extent axis).1 - halfWidth)
        (Coord.real (road.extent axis).2 + halfWidth) x == x) = true ↔
      road.Within axis x := by
  obtain ⟨hlow, hlowEdge⟩ := lowEdge_exact (road.extent axis).1
  obtain ⟨hhigh, hhighEdge⟩ := highEdge_exact (road.extent axis).2
  have hle := lowEdge_le_highEdge (road.extent_fst_le_snd axis)
  rw [clampTo_beq_iff hlow hhigh (by rwa [hlowEdge, hhighEdge]), hlowEdge, hhighEdge, Within]

/-- A position is contained in the widened box when both its coordinates are
finite and between the edges. -/
theorem contains_iff (road : Road) (position : Vec) :
    road.contains position = true ↔ ∀ axis, road.Within axis (axis.component position) := by
  rw [contains, moves, Bool.not_not, Vec.beq_iff]
  apply forall_congr'
  intro axis
  rw [component_clamp, clampTo_extent_beq_iff]

theorem isFinite_of_contains {road : Road} {position : Vec}
    (h : road.contains position = true) : position.isFinite = true :=
  (position.isFinite_iff).mpr fun axis => ((road.contains_iff position).mp h axis).1

/-- A finite coordinate brought between the edges lies between them, and at the
old value brought between the edges. -/
theorem within_clampTo (road : Road) (axis : Axis) {x : Float} (hx : x.isFinite = true) :
    let limited := clampTo (Coord.real (road.extent axis).1 - halfWidth)
      (Coord.real (road.extent axis).2 + halfWidth) x
    road.Within axis limited ∧
      value limited = max (lowEdge (road.extent axis).1)
        (min (highEdge (road.extent axis).2) (value x)) := by
  obtain ⟨hlow, hlowEdge⟩ := lowEdge_exact (road.extent axis).1
  obtain ⟨hhigh, hhighEdge⟩ := highEdge_exact (road.extent axis).2
  have hle := lowEdge_le_highEdge (road.extent_fst_le_snd axis)
  obtain ⟨hfinite, hvalue⟩ := clampTo_finite hlow hhigh hx (by rwa [hlowEdge, hhighEdge])
  rw [hlowEdge, hhighEdge] at hvalue
  refine ⟨⟨hfinite, ?_, ?_⟩, hvalue⟩
  · rw [hvalue]
    exact le_max_left _ _
  · rw [hvalue]
    exact max_le hle (min_le_left _ _)

/-- A coordinate between the edges is left as it is. -/
theorem clampTo_of_within {road : Road} {axis : Axis} {x : Float} (h : road.Within axis x) :
    clampTo (Coord.real (road.extent axis).1 - halfWidth)
      (Coord.real (road.extent axis).2 + halfWidth) x = x := by
  obtain ⟨hx, hbelow, habove⟩ := h
  obtain ⟨hlow, hlowEdge⟩ := lowEdge_exact (road.extent axis).1
  obtain ⟨hhigh, hhighEdge⟩ := highEdge_exact (road.extent axis).2
  exact clampTo_of_mem hlow hhigh hx (by rwa [hlowEdge]) (by rwa [hhighEdge])

end Road

end StreetDogs
