import StreetDogs.Proofs.Motion.Contacts
import StreetDogs.Proofs.Motion.Box

/-!
# Segments in boxes

The widened box of a road as a set of points of the real plane.  A dog moves
along one axis at a time, so a segment it travels lies in boxes as soon as the
interval it passes along that axis does.
-/

namespace StreetDogs

open Binary64

namespace Axis

def along (axis : Axis) (p : ℝ × ℝ) : ℝ :=
  match axis with
  | horizontal => p.1
  | vertical => p.2

end Axis

noncomputable def Vec.point (v : Vec) : ℝ × ℝ := (value v.x, value v.y)

theorem Vec.along_point (v : Vec) (axis : Axis) :
    axis.along v.point = value (axis.component v) := by
  cases axis <;> rfl

namespace Road

/-- The coordinates that the widened box of the road takes along an axis. -/
def interval (road : Road) (axis : Axis) : Set ℝ :=
  Set.Icc (lowEdge (road.extent axis).1 : ℝ) (highEdge (road.extent axis).2)

def box (road : Road) : Set (ℝ × ℝ) := {p | ∀ axis : Axis, axis.along p ∈ road.interval axis}

theorem within_iff (road : Road) (axis : Axis) (x : Float) :
    road.Within axis x ↔ x.isFinite = true ∧ (value x : ℝ) ∈ road.interval axis := by
  rw [Within, interval, Set.mem_Icc]
  norm_cast

/-- The box holds the points of the positions that the road contains. -/
theorem point_mem_box_iff (road : Road) {position : Vec} (h : position.isFinite = true) :
    position.point ∈ road.box ↔ road.contains position = true := by
  rw [contains_iff]
  apply forall_congr'
  intro axis
  rw [within_iff, Vec.along_point]
  exact (and_iff_right ((position.isFinite_iff).mp h axis)).symm

/-- The coordinate in reach of the road that is nearest to a target. -/
def haltAt (road : Road) (axis : Axis) (target : ℚ) : ℚ :=
  max (lowEdge (road.extent axis).1) (min (highEdge (road.extent axis).2) target)

theorem haltAt_mem_interval (road : Road) (axis : Axis) (target : ℚ) :
    (road.haltAt axis target : ℝ) ∈ road.interval axis := by
  have hle := lowEdge_le_highEdge (road.extent_fst_le_snd axis)
  rw [interval, Set.mem_Icc, haltAt]
  norm_cast
  exact ⟨le_max_left _ _, max_le hle (min_le_left _ _)⟩

/-- From a coordinate of the road, the nearest one to a target is on the way to
the target. -/
theorem haltAt_mem_uIcc (road : Road) (axis : Axis) {start : ℝ}
    (hstart : start ∈ road.interval axis) (target : ℚ) :
    (road.haltAt axis target : ℝ) ∈ Set.uIcc start target := by
  obtain ⟨hlow, hhigh⟩ := hstart
  rw [haltAt, Rat.cast_max, Rat.cast_min, Set.mem_uIcc]
  rcases le_total start target with hup | hdown
  · left
    refine ⟨?_, max_le (hlow.trans hup) (min_le_right _ _)⟩
    exact le_max_of_le_right (le_min hhigh hup)
  · right
    refine ⟨?_, max_le hlow ((min_le_right _ _).trans hdown)⟩
    exact le_max_of_le_right (le_min (hdown.trans hhigh) le_rfl)

/-- Two coordinates of a road have all coordinates between them on the road. -/
theorem uIcc_subset_interval (road : Road) (axis : Axis) {s t : ℝ}
    (hs : s ∈ road.interval axis) (ht : t ∈ road.interval axis) :
    Set.uIcc s t ⊆ road.interval axis :=
  Set.uIcc_subset_Icc hs ht

end Road

/-- A segment along one axis runs over the interval between its ends there and
keeps the other coordinate. -/
theorem along_of_mem_segment (axis : Axis) {p q r : ℝ × ℝ} (hr : r ∈ segment ℝ p q) :
    axis.along r ∈ Set.uIcc (axis.along p) (axis.along q) := by
  rw [← segment_eq_uIcc]
  obtain ⟨a, b, ha, hb, hab, rfl⟩ := hr
  refine ⟨a, b, ha, hb, hab, ?_⟩
  cases axis <;> rfl

/-- Every point of the set lies in the box of one of the listed roads. -/
def StreetMap.Covers (map : StreetMap) (path : List ℕ) (points : Set (ℝ × ℝ)) : Prop :=
  ∀ p ∈ points, ∃ index ∈ path, ∃ road, map.road? index = some road ∧ p ∈ road.box

/-- A segment along an axis is covered when the coordinates it takes there lie
on listed roads that reach its line. -/
theorem StreetMap.covers_segment {map : StreetMap} {path : List ℕ} {p q : ℝ × ℝ} (axis : Axis)
    (hacross : axis.perpendicular.along p = axis.perpendicular.along q)
    (h : ∀ t ∈ Set.uIcc (axis.along p) (axis.along q), ∃ index ∈ path, ∃ road,
      map.road? index = some road ∧ t ∈ road.interval axis ∧
        axis.perpendicular.along p ∈ road.interval axis.perpendicular) :
    map.Covers path (segment ℝ p q) := by
  intro r hr
  obtain ⟨index, hindex, road, hroad, halong, hline⟩ := h _ (along_of_mem_segment axis hr)
  refine ⟨index, hindex, road, hroad, (Axis.forall_iff axis).mpr ⟨halong, ?_⟩⟩
  have hr' := along_of_mem_segment axis.perpendicular hr
  rw [← hacross, Set.uIcc_self, Set.mem_singleton_iff] at hr'
  rwa [hr']

end StreetDogs
