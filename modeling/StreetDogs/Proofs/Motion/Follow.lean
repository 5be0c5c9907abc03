import StreetDogs.Motion.Drive
import StreetDogs.Proofs.Motion.Segment

/-!
# Following a line of roads

A continuation starts where a road ends, on the same line.  So the intervals of
the roads followed overlap, and together they hold all coordinates from the
start to the place where the last road brings the dog to a halt.
-/

namespace StreetDogs

open Binary64

namespace Road

def SameLine (a b : Road) : Prop := b.axis = a.axis ∧ b.fixed = a.fixed

theorem SameLine.refl (road : Road) : road.SameLine road := ⟨rfl, rfl⟩

theorem SameLine.trans {a b c : Road} (hab : a.SameLine b) (hbc : b.SameLine c) :
    a.SameLine c :=
  ⟨hbc.1.trans hab.1, hbc.2.trans hab.2⟩

theorem SameLine.extent_perpendicular {a b : Road} (h : a.SameLine b) :
    b.extent a.axis.perpendicular = a.extent a.axis.perpendicular := by
  have hb := b.extent_perpendicular
  rw [h.1, h.2] at hb
  rw [hb, Road.extent_perpendicular]

theorem SameLine.interval_perpendicular {a b : Road} (h : a.SameLine b) :
    b.interval a.axis.perpendicular = a.interval a.axis.perpendicular := by
  rw [interval, interval, h.extent_perpendicular]

theorem interval_axis (road : Road) :
    road.interval road.axis = Set.Icc (lowEdge road.low : ℝ) (highEdge road.high) := by
  rw [interval, extent_axis]

end Road

namespace StreetMap

variable {map : StreetMap} {candidate : Vec} {index next : ℕ} {road : Road}

/-- The end of a road beyond which the candidate lies is on the way from any
coordinate of the road to the candidate, and on the road that continues it. -/
private theorem exists_joint (hroad : map.road? index = some road)
    (hfinite : (road.axis.component candidate).isFinite = true)
    (h : map.continuation? candidate index = some next) :
    map.Touches index next ∧ ∃ nextRoad, map.road? next = some nextRoad ∧
      road.SameLine nextRoad ∧ ∃ joint : ℝ, joint ∈ road.interval road.axis ∧
        joint ∈ nextRoad.interval road.axis ∧ ∀ start ∈ road.interval road.axis,
          joint ∈ Set.uIcc start (value (road.axis.component candidate)) := by
  obtain ⟨hhigh, hhighEdge⟩ := highEdge_exact road.high
  obtain ⟨hlow, hlowEdge⟩ := lowEdge_exact road.low
  rw [continuation?] at h
  rw [hroad] at h
  dsimp only at h
  have hspan : (lowEdge road.low : ℝ) ≤ highEdge road.high := by
    exact_mod_cast lowEdge_le_highEdge road.low_le_high
  split_ifs at h with habove hbelow
  · rw [lt_iff hhigh hfinite, hhighEdge] at habove
    obtain ⟨htouches, road', nextRoad, hroad', hnext, hcontact, hup⟩ := find?_touching_eq_some h
    obtain rfl := Option.some.inj (hroad.symm.trans hroad')
    have hline := Road.axis_fixed_eq_of_adjacent hcontact
    rw [Road.continuesUp, Bool.and_eq_true, beq_iff_eq, decide_eq_true_iff] at hup
    refine ⟨htouches, nextRoad, hnext, hline, highEdge road.high, ?_, ?_, ?_⟩
    · rw [Road.interval_axis]
      exact ⟨hspan, le_rfl⟩
    · rw [← hline.1, Road.interval_axis, hup.1, Set.mem_Icc]
      norm_cast
      exact ⟨(lowEdge_le _).trans (le_highEdge _),
        highEdge_mono (Int32.le_of_lt hup.2)⟩
    · intro start hstart
      rw [Road.interval_axis] at hstart
      exact Set.mem_uIcc_of_le hstart.2 (by exact_mod_cast habove.le)
  · rw [lt_iff hfinite hlow, hlowEdge] at hbelow
    obtain ⟨htouches, road', nextRoad, hroad', hnext, hcontact, hdown⟩ :=
      find?_touching_eq_some h
    obtain rfl := Option.some.inj (hroad.symm.trans hroad')
    have hline := Road.axis_fixed_eq_of_adjacent hcontact
    rw [Road.continuesDown, Bool.and_eq_true, beq_iff_eq, decide_eq_true_iff] at hdown
    refine ⟨htouches, nextRoad, hnext, hline, lowEdge road.low, ?_, ?_, ?_⟩
    · rw [Road.interval_axis]
      exact ⟨le_rfl, hspan⟩
    · rw [← hline.1, Road.interval_axis, hdown.1, Set.mem_Icc]
      norm_cast
      exact ⟨lowEdge_mono (Int32.le_of_lt hdown.2),
        (lowEdge_le _).trans (le_highEdge _)⟩
    · intro start hstart
      rw [Road.interval_axis] at hstart
      exact Set.mem_uIcc_of_ge (by exact_mod_cast hbelow.le) hstart.1

/-- A way along the line of a road that holds all coordinates on the way from a
coordinate of the road towards the target, up to the halt on its last road. -/
structure LineWay (map : StreetMap) (index : ℕ) (road : Road) (target : ℚ) (last : ℕ)
    (lastRoad : Road) (path : List ℕ) : Prop where
  way : map.Way index last path
  last_eq : map.road? last = some lastRoad
  line : road.SameLine lastRoad
  halt : ∀ start ∈ road.interval road.axis,
    (lastRoad.haltAt road.axis target : ℝ) ∈ Set.uIcc start target
  covers : ∀ start ∈ road.interval road.axis,
    ∀ t ∈ Set.uIcc start (lastRoad.haltAt road.axis target : ℝ), ∃ i ∈ path, ∃ passed,
      map.road? i = some passed ∧ road.SameLine passed ∧ t ∈ passed.interval road.axis

private theorem lineWay_stay (hroad : map.road? index = some road) (target : ℚ) :
    map.LineWay index road target index road [index] where
  way := .stay index
  last_eq := hroad
  line := .refl road
  halt _ hstart := road.haltAt_mem_uIcc road.axis hstart target
  covers _ hstart _ ht :=
    ⟨index, List.mem_singleton_self index, road, hroad, .refl road,
      road.uIcc_subset_interval road.axis hstart (road.haltAt_mem_interval road.axis target) ht⟩

/-- A way continued from a joint of two roads. -/
private theorem LineWay.cons {nextRoad lastRoad : Road} {target : ℚ} {last : ℕ} {path : List ℕ}
    {joint : ℝ} (hroad : map.road? index = some road) (htouches : map.Touches index next)
    (hline : road.SameLine nextRoad) (hjoint : joint ∈ road.interval road.axis)
    (hjoint' : joint ∈ nextRoad.interval road.axis)
    (hbetween : ∀ start ∈ road.interval road.axis, joint ∈ Set.uIcc start target)
    (h : map.LineWay next nextRoad target last lastRoad path) :
    map.LineWay index road target last lastRoad (index :: path) := by
  obtain ⟨hway, hlast, hline', hhalt, hcovers⟩ := h
  rw [hline.1] at hhalt hcovers
  refine ⟨.step htouches hway, hlast, hline.trans hline', ?_, ?_⟩
  · intro start hstart
    exact Set.uIcc_subset_uIcc_right (hbetween start hstart) (hhalt joint hjoint')
  · intro start hstart t ht
    -- Up to the joint the road itself holds the coordinate, after it the rest of the way does.
    rcases Set.uIcc_subset_uIcc_union_uIcc ht with hbefore | hafter
    · exact ⟨index, List.mem_cons_self, road, hroad, .refl road,
        road.uIcc_subset_interval road.axis hstart hjoint hbefore⟩
    · obtain ⟨i, hi, passed, hpassed, hsame, hmem⟩ := hcovers joint hjoint' t hafter
      exact ⟨i, List.mem_cons_of_mem index hi, passed, hpassed, hline.trans hsame, hmem⟩

/-- However often continuations are followed, the roads make a way along the
line. -/
theorem follow_lineWay (limit : ℕ) (hroad : map.road? index = some road)
    (hfinite : (road.axis.component candidate).isFinite = true) :
    ∃ lastRoad path, map.LineWay index road (value (road.axis.component candidate))
      (map.follow candidate limit index) lastRoad path := by
  induction limit generalizing index road with
  | zero => exact ⟨road, [index], lineWay_stay hroad _⟩
  | succ limit ih =>
      rw [follow]
      cases hnext : map.continuation? candidate index with
      | none => exact ⟨road, [index], lineWay_stay hroad _⟩
      | some next =>
          obtain ⟨htouches, nextRoad, hnextRoad, hline, joint, hjoint, hjoint', hbetween⟩ :=
            exists_joint hroad hfinite hnext
          rw [← hline.1] at hfinite
          obtain ⟨lastRoad, path, hway⟩ := ih hnextRoad hfinite
          rw [hline.1] at hway
          exact ⟨lastRoad, index :: path,
            hway.cons hroad htouches hline hjoint hjoint' hbetween⟩

/-- A candidate on the road keeps the dog anchored to it. -/
theorem anchor_of_within (hroad : map.road? index = some road)
    (h : road.Within road.axis (road.axis.component candidate)) :
    map.anchor candidate index = index := by
  obtain ⟨hfinite, hbelow, habove⟩ := h
  rw [Road.extent_axis] at hbelow habove
  obtain ⟨hhigh, hhighEdge⟩ := highEdge_exact road.high
  obtain ⟨hlow, hlowEdge⟩ := lowEdge_exact road.low
  have hnone : map.continuation? candidate index = none := by
    rw [continuation?]
    rw [hroad]
    dsimp only
    rw [if_neg, if_neg]
    · rw [lt_iff hfinite hlow, hlowEdge]
      exact hbelow.not_gt
    · rw [lt_iff hhigh hfinite, hhighEdge]
      exact habove.not_gt
  rw [anchor]
  cases map.roads.length with
  | zero => rfl
  | succ limit => rw [follow, hnone]

end StreetMap

end StreetDogs
