import StreetDogs.Proofs.Motion.Walk

/-!
# Roads by a scan of the map

Which road a dog comes to can be told from the map alone, without the junctions:
it is the first road of the whole map that lies as the turn or the drive asks
for.  Roads across each other are in contact exactly when their centre lines
meet, and a turn looks first for roads that start at the centre line, then for
roads that hold the candidate.
-/

namespace StreetDogs

open Binary64

namespace Road

def centreLine (road : Road) : Set (ℝ × ℝ) :=
  {p | road.axis.along p ∈ Set.Icc (road.low.toInt : ℝ) road.high.toInt ∧
    road.axis.perpendicular.along p = road.fixed.toInt}

def Meets (a b : Road) : Prop := (a.centreLine ∩ b.centreLine).Nonempty

variable {a b road next : Road} {heading : Heading} {cross travel : Float}

theorem toInt_mem_Icc_iff (road : Road) (c : Coord) :
    (c.toInt : ℝ) ∈ Set.Icc (road.low.toInt : ℝ) road.high.toInt ↔ road.spans c = true := by
  rw [spans_iff, Set.mem_Icc, Int32.le_iff_toInt_le, Int32.le_iff_toInt_le]
  norm_cast

/-- Roads along different axes are in contact when they have a point in
common. -/
theorem contact_eq_crossed_iff_meets :
    a.contact b = some .crossed ↔ a.axis ≠ b.axis ∧ a.Meets b := by
  rw [contact_eq_crossed_iff]
  refine and_congr_right fun hne => ?_
  have haxis : b.axis = a.axis.perpendicular := Axis.eq_perpendicular_of_ne hne.symm
  rw [← toInt_mem_Icc_iff, ← toInt_mem_Icc_iff]
  constructor
  · rintro ⟨hb, ha⟩
    have hpoint : ∃ p : ℝ × ℝ, a.axis.along p = b.fixed.toInt ∧
        a.axis.perpendicular.along p = a.fixed.toInt := by
      cases a.axis with
      | horizontal => exact ⟨(b.fixed.toInt, a.fixed.toInt), rfl, rfl⟩
      | vertical => exact ⟨(a.fixed.toInt, b.fixed.toInt), rfl, rfl⟩
    obtain ⟨p, halong, hacross⟩ := hpoint
    refine ⟨p, ⟨by rwa [halong], hacross⟩, ?_, ?_⟩
    · rwa [haxis, hacross]
    · rw [haxis, Axis.perpendicular_perpendicular, halong]
  · rintro ⟨p, ⟨halong, hacross⟩, halong', hacross'⟩
    rw [haxis] at halong' hacross'
    rw [Axis.perpendicular_perpendicular] at hacross'
    rw [hacross'] at halong
    rw [hacross] at halong'
    exact ⟨halong, halong'⟩

/-- The road `next` runs across the road, meets it, and has its centre line
within the half-width of a coordinate along the road. -/
structure CrossedNear (road : Road) (cross : ℚ) (next : Road) : Prop where
  across : next.axis ≠ road.axis
  meets : road.Meets next
  near : |next.fixed.toInt - cross| ≤ halfWidthValue

theorem crossedNear_iff (hcross : cross.isFinite = true) : road.CrossedNear (value cross) next ↔
    road.contact next = some .crossed ∧ next.inReach cross = true := by
  rw [contact_eq_crossed_iff_meets, inReach_iff next hcross]
  constructor
  · rintro ⟨hacross, hmeets, hnear⟩
    exact ⟨⟨hacross.symm, hmeets⟩, hnear⟩
  · rintro ⟨⟨hacross, hmeets⟩, hnear⟩
    exact ⟨hacross.symm, hmeets, hnear⟩

theorem not_crossedNear_self (road : Road) (cross : ℚ) : ¬ road.CrossedNear cross road :=
  fun h => h.across rfl

theorem covers_iff (road : Road) (htravel : travel.isFinite = true) : road.covers travel = true ↔
    (road.low.toInt : ℚ) ≤ value travel ∧ value travel ≤ road.high.toInt := by
  obtain ⟨hlow, hlowValue⟩ := Coord.real_exact road.low
  obtain ⟨hhigh, hhighValue⟩ := Coord.real_exact road.high
  rw [covers, Bool.and_eq_true, decide_eq_true_iff, decide_eq_true_iff, le_iff hlow htravel,
    le_iff htravel hhigh, hlowValue, hhighValue]

end Road

namespace StreetMap

variable {map : StreetMap} {candidate : Vec} {index next other : ℕ} {road : Road}
  {heading : Heading}

/-- The roads near the dog that start at the centre line of its road, on the
side it heads to. -/
def crossingsAhead (map : StreetMap) (road : Road) (heading : Heading) (cross : ℚ) : Set ℕ :=
  map.indicesOf fun next => road.CrossedNear cross next ∧ next.back heading = road.fixed

/-- The roads near the dog that extend over a coordinate across its road. -/
def crossingsOver (map : StreetMap) (road : Road) (cross travel : ℚ) : Set ℕ :=
  map.indicesOf fun next => road.CrossedNear cross next ∧
    (next.low.toInt : ℚ) ≤ travel ∧ travel ≤ next.high.toInt

theorem crossingAhead?_eq_some_iff (hroad : map.road? index = some road)
    (hcandidate : candidate.isFinite = true) :
    map.crossingAhead? index road heading candidate = some other ↔
      IsLeast (map.crossingsAhead road heading (value (road.axis.component candidate))) other := by
  refine find?_touching_eq_some_iff hroad (fun h => road.not_crossedNear_self _ h.1) fun next => ?_
  rw [Road.crossedNear_iff (Motion.isFinite_component hcandidate road.axis), Bool.and_eq_true]
  constructor
  · rintro ⟨⟨hcontact, hreach⟩, hback⟩
    exact ⟨hcontact, (Road.liesAhead_iff hcontact).mpr hback, hreach⟩
  · rintro ⟨hcontact, hahead, hreach⟩
    exact ⟨⟨hcontact, hreach⟩, (Road.liesAhead_iff hcontact).mp hahead⟩

theorem crossingAt?_eq_some_iff (hroad : map.road? index = some road)
    (hcandidate : candidate.isFinite = true) :
    map.crossingAt? index road candidate = some other ↔
      IsLeast (map.crossingsOver road (value (road.axis.component candidate))
        (value (road.axis.perpendicular.component candidate))) other := by
  refine find?_touching_eq_some_iff hroad (fun h => road.not_crossedNear_self _ h.1) fun next => ?_
  rw [Road.crossedNear_iff (Motion.isFinite_component hcandidate road.axis), Bool.and_eq_true,
    Road.covers_iff next (Motion.isFinite_component hcandidate road.axis.perpendicular)]
  constructor
  · rintro ⟨⟨hcontact, hreach⟩, hcovers⟩
    exact ⟨hcontact, hcovers, hreach⟩
  · rintro ⟨hcontact, hcovers, hreach⟩
    exact ⟨⟨hcontact, hreach⟩, hcovers⟩

/-- The dog passes the edge of the road `index`, and `next` is the first road of
the map that prolongs it over that end. -/
def ScanStep (map : StreetMap) (candidate : Vec) (index next : ℕ) : Prop :=
  ∃ road e, map.road? index = some road ∧
    road.Passed e (value (road.axis.component candidate)) ∧
      IsLeast (map.indicesOf (road.ProlongedBy e)) next

theorem continues_iff_scanStep (hcandidate : candidate.isFinite = true) :
    map.Continues candidate index next ↔ map.ScanStep candidate index next := by
  rw [Continues]
  cases hroad : map.road? index with
  | none =>
      refine iff_of_false ?_ ?_
      · rw [continuation?, hroad]
        exact (Option.some_ne_none next).symm
      · rintro ⟨road, e, hroad', -⟩
        rw [hroad] at hroad'
        cases hroad'
  | some road =>
      rw [continuation?_eq_some_iff hroad (Motion.isFinite_component hcandidate road.axis)]
      constructor
      · rintro ⟨e, hpassed, hleast⟩
        exact ⟨road, e, hroad, hpassed, hleast⟩
      · rintro ⟨road', e, hroad', hpassed, hleast⟩
        obtain rfl := Option.some.inj (hroad.symm.trans hroad')
        exact ⟨e, hpassed, hleast⟩

/-- Roads of one line that begin at the same place, some of them declared from
the other end or without length, and two roads across them. -/
def overlaps : StreetMap where
  id := "overlaps"
  name := "Overlaps"
  roads := [.horizontal ⟨0, 0⟩ 10, .horizontal ⟨20, 0⟩ 10, .horizontal ⟨10, 0⟩ 30,
    .horizontal ⟨10, 0⟩ 10, .vertical ⟨10, -5⟩ 5, .vertical ⟨10, 8⟩ 0]
  buildings := []
  offices := []
  dogSpeed := none
  roads_ne_nil := List.cons_ne_nil _ _
  offices_nodup := List.nodup_nil
  dogSpeed_usable := usable_of_mem_none

end StreetMap

namespace Motion

variable {map : StreetMap} {motion : Motion} {road : Road} {candidate : Vec} {heading : Heading}
  {other : ℕ}

/-! ## The roads that dogs come to -/

private theorem road_turn_of_some
    (h : (map.crossingAhead? motion.road road heading candidate).or
      (map.crossingAt? motion.road road candidate) = some other)
    (hother : ∃ next, map.road? other = some next) :
    (turn map road heading motion candidate).road = other := by
  obtain ⟨next, hnext⟩ := hother
  rw [turn, h]
  dsimp only
  rw [hnext]
  rfl

private theorem road_turn_of_none
    (h : (map.crossingAhead? motion.road road heading candidate).or
      (map.crossingAt? motion.road road candidate) = none) :
    (turn map road heading motion candidate).road = motion.road := by
  rw [turn, h]
  rfl

private theorem exists_road_of_isLeast {p : Road → Prop} (h : IsLeast (map.indicesOf p) other) :
    ∃ next, map.road? other = some next :=
  ⟨h.1.choose, h.1.choose_spec.1⟩

/-- A turn comes to the first road ahead, else to the first road over the
candidate, and else stays. -/
theorem road_turn (heading : Heading) (hroad : map.road? motion.road = some road)
    (hcandidate : candidate.isFinite = true) :
    let cross := value (road.axis.component candidate)
    let travel := value (road.axis.perpendicular.component candidate)
    let after := (turn map road heading motion candidate).road
    IsLeast (map.crossingsAhead road heading cross) after ∨
      map.crossingsAhead road heading cross = ∅ ∧
        (IsLeast (map.crossingsOver road cross travel) after ∨
          map.crossingsOver road cross travel = ∅ ∧ after = motion.road) := by
  intro cross travel after
  have hahead (other : ℕ) :
      map.crossingAhead? motion.road road heading candidate = some other ↔
        IsLeast (map.crossingsAhead road heading cross) other :=
    StreetMap.crossingAhead?_eq_some_iff hroad hcandidate
  have hover (other : ℕ) : map.crossingAt? motion.road road candidate = some other ↔
      IsLeast (map.crossingsOver road cross travel) other :=
    StreetMap.crossingAt?_eq_some_iff hroad hcandidate
  cases hfound : map.crossingAhead? motion.road road heading candidate with
  | some other =>
      have hleast := (hahead other).mp hfound
      have hafter : after = other :=
        road_turn_of_some (by rw [hfound, Option.some_or]) (exists_road_of_isLeast hleast)
      exact Or.inl (hafter ▸ hleast)
  | none =>
      refine Or.inr ⟨(eq_none_iff_of_isLeast hahead).mp hfound, ?_⟩
      cases hfound' : map.crossingAt? motion.road road candidate with
      | some other =>
          have hleast := (hover other).mp hfound'
          have hafter : after = other :=
            road_turn_of_some (by rw [hfound, hfound', Option.none_or])
              (exists_road_of_isLeast hleast)
          exact Or.inl (hafter ▸ hleast)
      | none =>
          exact Or.inr ⟨(eq_none_iff_of_isLeast hover).mp hfound',
            road_turn_of_none (by rw [hfound, hfound', Option.none_or])⟩

/-- A drive keeps to the anchor that the walk leads to. -/
theorem road_drive (hroad : map.road? motion.road = some road)
    (hcandidate : candidate.isFinite = true) :
    (drive map motion candidate).road = map.anchor candidate motion.road := by
  obtain ⟨last, hlast, -⟩ :=
    StreetMap.exists_road_anchor hroad (isFinite_component hcandidate road.axis)
  rw [drive, hlast]
  rfl

/-- The road a dog comes to is found by scans of the whole map.  A turn comes to
the first road near the candidate that starts at the centre line of its road on
the side headed to, else to the first road near it that extends over the
candidate, and else stays.  Every step of a drive leads to the first road that
prolongs the one before over the end that the candidate passes, and the drive
takes such steps until there is none. -/
theorem road_by_scan (hroad : map.road? motion.road = some road)
    (hcandidate : candidate.isFinite = true) :
    (∀ heading,
      let cross := value (road.axis.component candidate)
      let travel := value (road.axis.perpendicular.component candidate)
      let after := (turn map road heading motion candidate).road
      IsLeast (map.crossingsAhead road heading cross) after ∨
        map.crossingsAhead road heading cross = ∅ ∧
          (IsLeast (map.crossingsOver road cross travel) after ∨
            map.crossingsOver road cross travel = ∅ ∧ after = motion.road)) ∧
    (∀ index next, map.continuation? candidate index = some next ↔
      map.ScanStep candidate index next) ∧
    Relation.ReflTransGen (map.ScanStep candidate) motion.road
      (drive map motion candidate).road ∧
    ∃ last, map.road? (drive map motion candidate).road = some last ∧
      ∀ e, last.Passed e (value (last.axis.component candidate)) →
        map.indicesOf (last.ProlongedBy e) = ∅ := by
  have hfinite := isFinite_component hcandidate
  have hsteps (index next : ℕ) : map.continuation? candidate index = some next ↔
      map.ScanStep candidate index next :=
    StreetMap.continues_iff_scanStep hcandidate
  obtain ⟨last, hlast, -⟩ := StreetMap.exists_road_anchor hroad (hfinite road.axis)
  rw [road_drive hroad hcandidate]
  refine ⟨fun heading => road_turn heading hroad hcandidate, hsteps, ?_, last, hlast, ?_⟩
  · exact Relation.ReflTransGen.mono (fun index next => (hsteps index next).mp) _ _
      (map.chain_anchor candidate motion.road)
  · intro e hpassed
    have hstays := StreetMap.continuation?_anchor hroad (hfinite road.axis)
    rw [Set.eq_empty_iff_forall_notMem]
    intro next hnext
    have hstep : map.ScanStep candidate (map.anchor candidate motion.road)
        (sInf (map.indicesOf (last.ProlongedBy e))) :=
      ⟨last, e, hlast, hpassed, Nat.sInf_mem ⟨next, hnext⟩, fun _ => Nat.sInf_le⟩
    rw [← hsteps, hstays] at hstep
    cases hstep

/-- A turn prefers the road that starts at the crossing to an earlier one that
leads through it, and a drive the first road that prolongs its road to a later
one that leads further. -/
theorem road_by_scan_overlaps :
    IsLeast (StreetMap.overlaps.crossingsAhead (.horizontal ⟨0, 0⟩ 10) .south (value 9.75))
        (turn .overlaps (.horizontal ⟨0, 0⟩ 10) .south ⟨0, ⟨9.75, 0.25⟩, .zero⟩
          ⟨9.75, 3.0⟩).road ∧
      (turn .overlaps (.horizontal ⟨0, 0⟩ 10) .south ⟨0, ⟨9.75, 0.25⟩, .zero⟩
        ⟨9.75, 3.0⟩).road = 5 ∧
      Relation.ReflTransGen (StreetMap.overlaps.ScanStep ⟨25.0, 0.25⟩) 0
        (drive .overlaps ⟨0, ⟨9.75, 0.25⟩, .zero⟩ ⟨25.0, 0.25⟩).road ∧
      (drive .overlaps ⟨0, ⟨9.75, 0.25⟩, .zero⟩ ⟨25.0, 0.25⟩).road = 1 := by
  have hroad : StreetMap.overlaps.road? 0 = some (.horizontal ⟨0, 0⟩ 10) := rfl
  have hturn : (turn .overlaps (.horizontal ⟨0, 0⟩ 10) .south ⟨0, ⟨9.75, 0.25⟩, .zero⟩
      ⟨9.75, 3.0⟩).road = 5 := by decide +kernel
  have hdrive : (drive .overlaps ⟨0, ⟨9.75, 0.25⟩, .zero⟩ ⟨25.0, 0.25⟩).road = 1 := by
    decide +kernel
  have hturned := (@road_by_scan .overlaps ⟨0, ⟨9.75, 0.25⟩, .zero⟩ _ ⟨9.75, 3.0⟩ hroad
    (by decide +kernel)).1 .south
  have hdriven := (@road_by_scan .overlaps ⟨0, ⟨9.75, 0.25⟩, .zero⟩ _ ⟨25.0, 0.25⟩ hroad
    (by decide +kernel)).2.2.1
  refine ⟨?_, hturn, hdriven, hdrive⟩
  rcases hturned with hahead | ⟨hnone, -⟩
  · exact hahead
  · have hfound : StreetMap.overlaps.crossingAhead? 0 (.horizontal ⟨0, 0⟩ 10) .south
        ⟨9.75, 3.0⟩ = some 5 := by decide +kernel
    have hmem := ((StreetMap.crossingAhead?_eq_some_iff hroad (by decide +kernel)).mp hfound).1
    exact absurd hmem (Set.eq_empty_iff_forall_notMem.mp hnone 5)

end Motion

end StreetDogs
