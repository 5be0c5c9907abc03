import StreetDogs.Motion.Spawn
import StreetDogs.Proofs.Motion.Travel
import StreetDogs.Proofs.Random.Uniform

/-!
# Starting points are on the road

A new dog is at rest on the centre line of the road it is anchored to, whether
that road is the first one or drawn.
-/

namespace StreetDogs

open Binary64

namespace Road

/-- The centre line is contained in the road. -/
theorem contains_of_centre (road : Road) {position : Vec}
    (halong : (road.axis.component position).isFinite = true)
    (hlow : (road.low.toInt : ℚ) ≤ value (road.axis.component position))
    (hhigh : value (road.axis.component position) ≤ road.high.toInt)
    (hacross : road.axis.perpendicular.component position = Coord.real road.fixed) :
    road.contains position = true := by
  rw [contains_iff, Axis.forall_iff road.axis]
  constructor
  · rw [Within, extent_axis]
    exact ⟨halong, (lowEdge_le _).trans hlow, hhigh.trans (le_highEdge _)⟩
  · obtain ⟨hfinite, hvalue⟩ := Coord.real_exact road.fixed
    rw [hacross, Within, extent_perpendicular, hvalue]
    exact ⟨hfinite, lowEdge_le _, le_highEdge _⟩

private theorem coord_mem_span (road : Road) :
    road.low ≤ road.axis.coord road.start ∧ road.axis.coord road.start ≤ road.high := by
  rw [low, high]
  generalize road.axis.coord road.start = c
  generalize road.stop = d
  change (if c ≤ d then c else d) ≤ c ∧ c ≤ (if c ≤ d then d else c)
  split_ifs with h
  · exact ⟨Int32.le_refl c, h⟩
  · refine ⟨?_, Int32.le_refl c⟩
    rw [Int32.le_iff_toInt_le] at h ⊢
    omega

/-- A road contains its start. -/
theorem contains_start (road : Road) : road.contains road.start.toVec = true := by
  obtain ⟨hlow, hhigh⟩ := road.coord_mem_span
  have hcomponent (axis : Axis) (p : GridPoint) :
      axis.component p.toVec = Coord.real (axis.coord p) := by
    cases axis <;> rfl
  obtain ⟨hfinite, hvalue⟩ := Coord.real_exact (road.axis.coord road.start)
  apply contains_of_centre
  · rwa [hcomponent]
  · rw [hcomponent, hvalue]
    exact_mod_cast Int32.le_iff_toInt_le.mp hlow
  · rw [hcomponent, hvalue]
    exact_mod_cast Int32.le_iff_toInt_le.mp hhigh
  · rw [hcomponent, fixed]

/-- A road contains the points drawn on it. -/
theorem contains_randomPoint (road : Road) (words : Supply UInt64) :
    road.contains (road.randomPoint words).1 = true := by
  obtain ⟨hfinite, hlow, hhigh⟩ := Uniform.coordinate_mem road.low_le_high words
  have halong : road.axis.component (road.randomPoint words).1 =
      (Uniform.coordinate (Coord.real road.low) (Coord.real road.high) words).1 := by
    rw [randomPoint]
    cases road.axis <;> rfl
  have hacross : road.axis.perpendicular.component (road.randomPoint words).1 =
      Coord.real road.fixed := by
    rw [randomPoint]
    cases road.axis <;> rfl
  rw [← halong] at hfinite hlow hhigh
  exact road.contains_of_centre hfinite hlow hhigh hacross

end Road

namespace Motion

/-- A new dog is anchored and at rest. -/
theorem spawn_anchored (map : StreetMap) (randomize : Bool) (words : Supply UInt64) :
    (spawn map randomize words).1.Anchored map ∧
      (spawn map randomize words).1.velocity = .zero := by
  rw [spawn]
  split_ifs with hrandomize
  · have hlength : 0 < map.roads.length := List.length_pos_iff.mpr map.roads_ne_nil
    have hindex := Uniform.index_lt hlength words
    have hroad : map.road? (Uniform.index map.roads.length words).1 =
        some map.roads[(Uniform.index map.roads.length words).1] := List.getElem?_eq_getElem hindex
    refine ⟨⟨_, hroad, ?_⟩, rfl⟩
    change Road.contains _ (((map.road? (Uniform.index map.roads.length words).1).getD
      map.firstRoad).randomPoint (Uniform.index map.roads.length words).2).1 = true
    rw [hroad]
    exact Road.contains_randomPoint _ _
  · have hroad : map.road? 0 = some map.firstRoad := by
      rw [StreetMap.road?, StreetMap.firstRoad, ← List.head?_eq_getElem?]
      exact (List.head?_eq_some_head map.roads_ne_nil)
    exact ⟨⟨map.firstRoad, hroad, map.firstRoad.contains_start⟩, rfl⟩

end Motion

end StreetDogs
