import StreetDogs.Proofs.Motion.Legs
import StreetDogs.Proofs.Motion.Scan

/-!
# Symmetries of the grid

The transposition exchanges both coordinates, a mirror negates one of them.
Either takes roads to roads, with the order of their ends, and both ends of a
road to the ends of its image, possibly exchanged.  Counted outward over an end,
coordinates stay as they are, so whatever is said of a road in terms of its ends
is said of its image too.
-/

namespace StreetDogs

open Binary Binary64

/-- A symmetry of the grid: the exchange of both coordinates, or the change of
sign of the coordinate along an axis. -/
inductive Symmetry where
  | transposition
  | mirror (axis : Axis)
deriving DecidableEq, Repr

namespace Symmetry

def axis : Symmetry → Axis → Axis
  | transposition, axis => axis.perpendicular
  | mirror _, axis => axis

/-- The coordinate along the axis changes its sign. -/
def flips : Symmetry → Axis → Bool
  | transposition, _ => false
  | mirror mirrored, axis => decide (axis = mirrored)

def vec : Symmetry → Vec → Vec
  | transposition, v => ⟨v.y, v.x⟩
  | mirror .horizontal, v => ⟨-v.x, v.y⟩
  | mirror .vertical, v => ⟨v.x, -v.y⟩

def point : Symmetry → GridPoint → GridPoint
  | transposition, p => ⟨p.y, p.x⟩
  | mirror .horizontal, p => ⟨-p.x, p.y⟩
  | mirror .vertical, p => ⟨p.x, -p.y⟩

def heading : Symmetry → Heading → Heading
  | transposition, .north => .west
  | transposition, .west => .north
  | transposition, .south => .east
  | transposition, .east => .south
  | mirror .horizontal, .east => .west
  | mirror .horizontal, .west => .east
  | mirror .vertical, .north => .south
  | mirror .vertical, .south => .north
  | _, heading => heading

def coord (σ : Symmetry) (axis : Axis) (c : Coord) : Coord := if σ.flips axis then -c else c

def signed (σ : Symmetry) (axis : Axis) (x : ℚ) : ℚ := if σ.flips axis then -x else x

def roadEnd (σ : Symmetry) (axis : Axis) (e : RoadEnd) : RoadEnd :=
  if σ.flips axis then e.opposite else e

def road (σ : Symmetry) (road : Road) : Road :=
  ⟨σ.axis road.axis, σ.point road.start, σ.coord road.axis road.stop⟩

def motion (σ : Symmetry) (motion : Motion) : Motion :=
  ⟨motion.road, σ.vec motion.position, σ.vec motion.velocity⟩

/-- The negated coordinates of both ends are still coordinates. -/
def Fits (σ : Symmetry) (road : Road) : Prop :=
  ∀ axis, σ.flips axis = true → -2 ^ 31 < (axis.coord road.start).toInt ∧
    -2 ^ 31 < (axis.coord road.finish).toInt

instance (σ : Symmetry) (road : Road) : Decidable (σ.Fits road) :=
  decidable_of_iff (∀ axis ∈ Axis.all, σ.flips axis = true →
    -2 ^ 31 < (axis.coord road.start).toInt ∧ -2 ^ 31 < (axis.coord road.finish).toInt)
    ⟨fun h axis => h axis (by cases axis <;> decide), fun h axis _ => h axis⟩

variable {σ : Symmetry} {axis : Axis} {e : RoadEnd} {x y : ℚ}

theorem axis_perpendicular (σ : Symmetry) (axis : Axis) :
    σ.axis axis.perpendicular = (σ.axis axis).perpendicular := by
  cases σ <;> cases axis <;> rfl

theorem axis_injective (σ : Symmetry) : Function.Injective σ.axis := by
  intro a b h
  cases σ <;> cases a <;> cases b <;> first | rfl | cases h

theorem forall_axis (σ : Symmetry) {p : Axis → Prop} :
    (∀ axis, p (σ.axis axis)) ↔ ∀ axis, p axis := by
  cases σ with
  | transposition =>
      rw [Axis.forall_iff .horizontal, Axis.forall_iff .vertical]
      rfl
  | mirror _ => rfl

theorem axis?_heading (σ : Symmetry) (heading : Heading) :
    (σ.heading heading).axis? = heading.axis?.map σ.axis := by
  rcases σ with _ | (_ | _) <;> cases heading <;> rfl

theorem exit_heading {heading : Heading} (h : heading.axis? = some axis) :
    (σ.heading heading).exit = σ.roadEnd axis heading.exit := by
  rcases σ with _ | (_ | _) <;> cases heading <;> cases axis <;> first | rfl | cases h

theorem signed_injective (σ : Symmetry) (axis : Axis) : Function.Injective (σ.signed axis) := by
  intro x y h
  unfold signed at h
  split_ifs at h
  · exact neg_inj.mp h
  · exact h

theorem signed_add (σ : Symmetry) (axis : Axis) (x y : ℚ) :
    σ.signed axis (x + y) = σ.signed axis x + σ.signed axis y := by
  unfold signed
  split_ifs
  · exact neg_add x y
  · rfl

theorem signed_mul (σ : Symmetry) (axis : Axis) (x y : ℚ) :
    σ.signed axis (x * y) = σ.signed axis x * y := by
  unfold signed
  split_ifs
  · exact neg_mul_eq_neg_mul x y
  · rfl

theorem signed_sub (σ : Symmetry) (axis : Axis) (x y : ℚ) :
    σ.signed axis (x - y) = σ.signed axis x - σ.signed axis y := by
  unfold signed
  split_ifs
  · ring
  · rfl

theorem abs_signed (σ : Symmetry) (axis : Axis) (x : ℚ) : |σ.signed axis x| = |x| := by
  unfold signed
  split_ifs
  · exact abs_neg x
  · rfl

theorem nearest_signed (σ : Symmetry) (axis : Axis) (x : ℚ) :
    nearest .binary64 (σ.signed axis x) = σ.signed axis (nearest .binary64 x) := by
  unfold signed
  split_ifs
  · exact nearest_neg x
  · rfl

/-- Outward over an end, images are counted as the numbers themselves. -/
@[simp]
theorem outward_signed (σ : Symmetry) (axis : Axis) (e : RoadEnd) (x : ℚ) :
    (σ.roadEnd axis e).outward (σ.signed axis x) = e.outward x := by
  unfold roadEnd signed
  split_ifs
  · cases e with
    | low => rfl
    | high => exact neg_neg x
  · rfl

theorem roadEnd_opposite (σ : Symmetry) (axis : Axis) (e : RoadEnd) :
    σ.roadEnd axis e.opposite = (σ.roadEnd axis e).opposite := by
  unfold roadEnd
  split_ifs <;> rfl

theorem forall_roadEnd (σ : Symmetry) (axis : Axis) {p : RoadEnd → Prop} :
    (∀ e, p (σ.roadEnd axis e)) ↔ ∀ e, p e := by
  unfold roadEnd
  split_ifs
  · exact ⟨fun h e => e.opposite_opposite ▸ h e.opposite, fun h e => h e.opposite⟩
  · rfl

theorem exists_roadEnd (σ : Symmetry) (axis : Axis) {p : RoadEnd → Prop} :
    (∃ e, p (σ.roadEnd axis e)) ↔ ∃ e, p e := by
  simpa using not_congr (σ.forall_roadEnd axis (p := fun e => ¬ p e))

end Symmetry

namespace RoadEnd

theorem outward_injective (e : RoadEnd) : Function.Injective e.outward := by
  cases e with
  | low => exact neg_injective
  | high => exact Function.injective_id

/-- Outward over an end, its edge is a half-width beyond it, rounded. -/
theorem outward_edge (e : RoadEnd) (c : Coord) :
    e.outward (value (e.edge c)) = nearest .binary64 (e.outward c.toInt + halfWidthValue) := by
  cases e with
  | low =>
      have hvalue : value (low.edge c) = lowEdge c := (lowEdge_exact c).2
      rw [hvalue, lowEdge, outward, outward, ← nearest_neg, neg_sub, sub_eq_neg_add]
  | high => exact (highEdge_exact c).2

end RoadEnd

namespace Road

variable {road next : Road} {axis : Axis} {x : Float} {heading : Heading}

def extentEnd (road : Road) (axis : Axis) : RoadEnd → Coord
  | .low => (road.extent axis).1
  | .high => (road.extent axis).2

theorem extentEnd_axis (road : Road) (e : RoadEnd) :
    road.extentEnd road.axis e = road.endCoord e := by
  cases e <;> rw [extentEnd, extent_axis] <;> rfl

theorem extentEnd_perpendicular (road : Road) (e : RoadEnd) :
    road.extentEnd road.axis.perpendicular e = road.fixed := by
  cases e <;> rw [extentEnd, extent_perpendicular]

/-- Outward over an end, a road extends as far as the farther one of its two end
points. -/
theorem outward_extentEnd (road : Road) (axis : Axis) (e : RoadEnd) :
    e.outward (road.extentEnd axis e).toInt =
      max (e.outward (axis.coord road.start).toInt) (e.outward (axis.coord road.finish).toInt) := by
  revert axis
  rw [Axis.forall_iff road.axis]
  constructor
  · rw [extentEnd_axis, Axis.coord_finish]
    cases e with
    | low =>
        rw [endCoord, low, Coord.toInt_min, RoadEnd.outward, Int.cast_min, ← max_neg_neg]
        rfl
    | high =>
        rw [endCoord, high, Coord.toInt_max, RoadEnd.outward, Int.cast_max]
        rfl
  · rw [extentEnd_perpendicular, Axis.perpendicular_coord_finish]
    exact (max_eq_left le_rfl).symm

/-- How far the box of the road extends over an end along an axis, counted
outward. -/
def bound (road : Road) (axis : Axis) (e : RoadEnd) : ℚ :=
  nearest .binary64 (e.outward (road.extentEnd axis e).toInt + halfWidthValue)

theorem lowEdge_extent (road : Road) (axis : Axis) :
    lowEdge (road.extent axis).1 = -road.bound axis .low := by
  have hvalue : value (RoadEnd.low.edge (road.extent axis).1) = lowEdge (road.extent axis).1 :=
    (lowEdge_exact _).2
  rw [← hvalue, bound, ← RoadEnd.outward_edge]
  exact (neg_neg _).symm

theorem highEdge_extent (road : Road) (axis : Axis) :
    highEdge (road.extent axis).2 = road.bound axis .high := rfl

/-- A finite coordinate lies between the edges along an axis when it does not lie
beyond either of them. -/
theorem within_iff_bound (hx : x.isFinite = true) :
    road.Within axis x ↔ ∀ e : RoadEnd, e.outward (value x) ≤ road.bound axis e := by
  rw [Within, and_iff_right hx, lowEdge_extent, highEdge_extent]
  constructor
  · rintro ⟨habove, hbelow⟩ (_ | _)
    · exact neg_le.mp habove
    · exact hbelow
  · intro h
    exact ⟨neg_le.mp (h .low), h .high⟩

/-- The number lies on the road, without the margins. -/
def Extends (road : Road) (x : ℚ) : Prop :=
  ∀ e : RoadEnd, e.outward x ≤ e.outward (road.endCoord e).toInt

theorem extends_iff {x : ℚ} :
    road.Extends x ↔ (road.low.toInt : ℚ) ≤ x ∧ x ≤ road.high.toInt := by
  constructor
  · intro h
    exact ⟨neg_le_neg_iff.mp (h .low), h .high⟩
  · rintro ⟨habove, hbelow⟩ (_ | _)
    · exact neg_le_neg habove
    · exact hbelow

theorem spans_iff_extends (c : Coord) : road.spans c = true ↔ road.Extends c.toInt := by
  rw [extends_iff, spans_iff, Int32.le_iff_toInt_le, Int32.le_iff_toInt_le]
  norm_cast

/-- The end that a heading comes from is the one opposite to its exit. -/
theorem back_eq_endCoord (road : Road) (heading : Heading) :
    road.back heading = road.endCoord heading.exit.opposite := by
  rw [back, Heading.exit]
  split_ifs <;> rfl

theorem prolongedBy_iff_outward {e : RoadEnd} : road.ProlongedBy e next ↔
    next.axis = road.axis ∧ (next.fixed.toInt : ℚ) = road.fixed.toInt ∧
      e.outward (next.endCoord e.opposite).toInt = e.outward (road.endCoord e).toInt ∧
        e.outward (road.endCoord e).toInt < e.outward (next.endCoord e).toInt := by
  rw [e.outward_injective.eq_iff, Int.cast_inj, Int.cast_inj, Int32.toInt_inj, Int32.toInt_inj]
  constructor
  · rintro ⟨⟨haxis, hfixed⟩, hjoint, hfurther⟩
    exact ⟨haxis, hfixed, hjoint, hfurther⟩
  · rintro ⟨haxis, hfixed, hjoint, hfurther⟩
    exact ⟨⟨haxis, hfixed⟩, hjoint, hfurther⟩

end Road

/-! ## Images of roads -/

namespace Symmetry

variable {σ : Symmetry} {road next : Road} {x y : Float} {e : RoadEnd}

theorem axis_road (σ : Symmetry) (road : Road) : (σ.road road).axis = σ.axis road.axis := rfl

theorem coord_point (σ : Symmetry) (axis : Axis) (p : GridPoint) :
    (σ.axis axis).coord (σ.point p) = σ.coord axis (axis.coord p) := by
  rcases σ with _ | (_ | _) <;> cases axis <;> rfl

/-- The other end point is taken to that of the image. -/
theorem finish_road (σ : Symmetry) (road : Road) : (σ.road road).finish = σ.point road.finish := by
  obtain ⟨axis, start, stop⟩ := road
  rcases σ with _ | (_ | _) <;> cases axis <;> rfl

theorem toInt_coord {axis : Axis} {c : Coord} (h : σ.flips axis = true → -2 ^ 31 < c.toInt) :
    ((σ.coord axis c).toInt : ℚ) = σ.signed axis c.toInt := by
  rw [coord, signed]
  split_ifs with hflips
  · have hlow := h hflips
    have hhigh := c.toInt_lt
    have hexact : (-c).toInt = -c.toInt := by
      rw [Int32.toInt_neg]
      exact Int.bmod_eq_of_le (by omega) (by omega)
    rw [hexact, Int.cast_neg]
  · rfl

/-- The extent of the image reaches as far over the image of an end. -/
theorem toInt_extentEnd (h : σ.Fits road) (axis : Axis) (e : RoadEnd) :
    (((σ.road road).extentEnd (σ.axis axis) (σ.roadEnd axis e)).toInt : ℚ) =
      σ.signed axis (road.extentEnd axis e).toInt := by
  have hstart : (σ.road road).start = σ.point road.start := rfl
  apply (σ.roadEnd axis e).outward_injective
  rw [outward_signed, Road.outward_extentEnd, Road.outward_extentEnd, hstart, finish_road,
    coord_point, coord_point, toInt_coord fun hflips => (h axis hflips).1,
    toInt_coord fun hflips => (h axis hflips).2, outward_signed, outward_signed]

theorem toInt_endCoord (h : σ.Fits road) (e : RoadEnd) :
    (((σ.road road).endCoord (σ.roadEnd road.axis e)).toInt : ℚ) =
      σ.signed road.axis (road.endCoord e).toInt := by
  rw [← Road.extentEnd_axis, ← Road.extentEnd_axis]
  exact toInt_extentEnd h road.axis e

theorem toInt_fixed (h : σ.Fits road) :
    ((σ.road road).fixed.toInt : ℚ) = σ.signed road.axis.perpendicular road.fixed.toInt := by
  have hextent := toInt_extentEnd h road.axis.perpendicular .low
  rwa [Road.extentEnd_perpendicular, axis_perpendicular, ← axis_road,
    Road.extentEnd_perpendicular] at hextent

theorem bound_road (h : σ.Fits road) (axis : Axis) (e : RoadEnd) :
    (σ.road road).bound (σ.axis axis) (σ.roadEnd axis e) = road.bound axis e := by
  rw [Road.bound, Road.bound, toInt_extentEnd h, outward_signed]

theorem within_road (h : σ.Fits road) {axis : Axis} (hx : x.isFinite = true)
    (hy : y.isFinite = true) (hvalue : value y = σ.signed axis (value x)) :
    (σ.road road).Within (σ.axis axis) y ↔ road.Within axis x := by
  rw [Road.within_iff_bound hx, Road.within_iff_bound hy, ← σ.forall_roadEnd axis]
  simp only [hvalue, bound_road h, outward_signed]

theorem passed_road (h : σ.Fits road) (e : RoadEnd) (x : ℚ) :
    (σ.road road).Passed (σ.roadEnd road.axis e) (σ.signed road.axis x) ↔ road.Passed e x := by
  simp only [Road.Passed, RoadEnd.outward_edge, toInt_endCoord h, outward_signed]

theorem extends_road (h : σ.Fits road) (x : ℚ) :
    (σ.road road).Extends (σ.signed road.axis x) ↔ road.Extends x := by
  rw [Road.Extends, ← σ.forall_roadEnd road.axis]
  simp only [toInt_endCoord h, outward_signed]
  rfl

theorem axis_road_eq_iff : (σ.road next).axis = (σ.road road).axis ↔ next.axis = road.axis :=
  σ.axis_injective.eq_iff

theorem contact_road (h : σ.Fits road) (hnext : σ.Fits next) :
    (σ.road road).contact (σ.road next) = some .crossed ↔ road.contact next = some .crossed := by
  rw [Road.contact_eq_crossed_iff, Road.contact_eq_crossed_iff, Ne, axis_road_eq_iff]
  refine and_congr_right fun hne => ?_
  have haxis := Axis.eq_perpendicular_of_ne hne
  have haxis' := Axis.eq_perpendicular_of_ne (Ne.symm hne)
  simp only [Road.spans_iff_extends, toInt_fixed h, toInt_fixed hnext, ← haxis, ← haxis',
    extends_road h, extends_road hnext]

theorem prolongedBy_road (h : σ.Fits road) (hnext : σ.Fits next) :
    (σ.road road).ProlongedBy (σ.roadEnd road.axis e) (σ.road next) ↔
      road.ProlongedBy e next := by
  rw [Road.prolongedBy_iff_outward, Road.prolongedBy_iff_outward, axis_road_eq_iff]
  refine and_congr_right fun haxis => ?_
  have hends := toInt_endCoord hnext
  have hfixed := toInt_fixed hnext
  simp only [haxis] at hends hfixed
  rw [← roadEnd_opposite, hends, hends, hfixed, toInt_fixed h, toInt_endCoord h]
  simp only [outward_signed, (σ.signed_injective _).eq_iff]

/-- The heading's image comes from the image of the end that the heading comes
from. -/
theorem back_road_eq_iff {heading : Heading} (h : σ.Fits road) (hnext : σ.Fits next)
    (hacross : next.axis = road.axis.perpendicular) (hheading : heading.axis? = some next.axis) :
    (σ.road next).back (σ.heading heading) = (σ.road road).fixed ↔
      next.back heading = road.fixed := by
  rw [Road.back_eq_endCoord, Road.back_eq_endCoord, exit_heading hheading, ← roadEnd_opposite,
    ← Int32.toInt_inj, ← Int32.toInt_inj, ← Int.cast_inj (α := ℚ), ← Int.cast_inj (α := ℚ),
    toInt_endCoord hnext, toInt_fixed h, hacross, (σ.signed_injective _).eq_iff]

theorem inReach_road (hnext : σ.Fits next) (hx : x.isFinite = true) (hy : y.isFinite = true)
    (hvalue : value y = σ.signed next.axis.perpendicular (value x)) :
    (σ.road next).inReach y = true ↔ next.inReach x = true := by
  rw [Road.inReach_iff _ hx, Road.inReach_iff _ hy, hvalue, toInt_fixed hnext, ← signed_sub,
    abs_signed]

end Symmetry

end StreetDogs
