import StreetDogs.Proofs.Motion.Clamp

/-!
# Turns at crossings

A turn is taken when a crossing road within reach starts at the centre line, so
that it leads away to the side headed to, or when a crossing road within reach
holds the candidate.  So a road that leads through the crossing takes the dog
only if the step ends before the road does: a step that is too long is not
clamped to the end of such a road, it is refused.
-/

namespace StreetDogs

open Binary Binary64

/-- The whole numbers next to a coordinate are represented exactly. -/
private theorem nearest_coord_add (c : Coord) {n : ℤ} (hn : |n| ≤ 1) :
    nearest .binary64 (c.toInt + n) = c.toInt + n := by
  have hlow := c.le_toInt
  have hhigh := c.toInt_lt
  have hbound : |c.toInt + n| < 2 ^ 53 := by
    rw [abs_le] at hn
    rw [abs_lt]
    constructor <;> omega
  exact_mod_cast nearest_of_representable (representable_intCast hbound)

theorem sub_one_le_lowEdge (c : Coord) : (c.toInt : ℚ) - 1 ≤ lowEdge c := by
  have hexact := nearest_coord_add c (n := -1) (by norm_num)
  push_cast at hexact
  rw [sub_eq_add_neg, ← hexact, lowEdge]
  apply nearest_mono
  linarith [halfWidthValue_lt_half]

theorem highEdge_le_add_one (c : Coord) : highEdge c ≤ (c.toInt : ℚ) + 1 := by
  have hexact := nearest_coord_add c (n := 1) (by norm_num)
  push_cast at hexact
  rw [← hexact, highEdge]
  apply nearest_mono
  linarith [halfWidthValue_lt_half]

namespace Road

def back (road : Road) (heading : Heading) : Coord :=
  if heading.isForward then road.low else road.high

def front (road : Road) (heading : Heading) : Coord :=
  if heading.isForward then road.high else road.low

/-- How far a dog may go past the end that its heading leads to. -/
def frontEdge (road : Road) (heading : Heading) : Float :=
  if heading.isForward then Coord.real road.high + halfWidth else Coord.real road.low - halfWidth

variable {road next : Road} {heading : Heading}

/-- A crossing road lies ahead when it starts at the centre line. -/
theorem liesAhead_iff (h : road.contact next = some .crossed) :
    next.liesAhead heading road.fixed = true ↔ next.back heading = road.fixed := by
  obtain ⟨-, -, hspans⟩ := contact_eq_crossed_iff.mp h
  obtain ⟨hlow, hhigh⟩ := (spans_iff _ _).mp hspans
  rw [liesAhead, back]
  split_ifs
  · rw [decide_eq_true_iff]
    exact ⟨Int32.le_antisymm hlow, fun heq => heq ▸ Int32.le_refl _⟩
  · rw [decide_eq_true_iff]
    exact ⟨fun hle => Int32.le_antisymm hle hhigh, fun heq => heq ▸ Int32.le_refl _⟩

/-- A dog that comes from the centre line of its road is covered by a road that
leads through the crossing as long as it does not pass the end ahead. -/
theorem covers_iff_precedes (h : road.contact next = some .crossed)
    (hback : next.back heading ≠ road.fixed) {start travel : Float}
    (hstart : road.Within road.axis.perpendicular start) (htravel : travel.isFinite = true)
    (hside : heading.Precedes start travel) :
    next.covers travel = true ↔ heading.Precedes travel (Coord.real (next.front heading)) := by
  obtain ⟨hfinite, hbelow, habove⟩ := hstart
  rw [extent_perpendicular] at hbelow habove
  obtain ⟨-, -, hspans⟩ := contact_eq_crossed_iff.mp h
  obtain ⟨hlow, hhigh⟩ := (spans_iff _ _).mp hspans
  rw [Int32.le_iff_toInt_le] at hlow hhigh
  obtain ⟨hlowFinite, hlowValue⟩ := Coord.real_exact next.low
  obtain ⟨hhighFinite, hhighValue⟩ := Coord.real_exact next.high
  rw [covers, Bool.and_eq_true, decide_eq_true_iff, decide_eq_true_iff]
  rw [back] at hback
  unfold Heading.Precedes front at *
  -- The end behind is a whole unit behind the centre line, farther than the half-width.
  split_ifs at * with hforward
  · refine and_iff_right ?_
    have hgap : next.low.toInt + 1 ≤ road.fixed.toInt :=
      lt_of_le_of_ne hlow fun heq => hback (Int32.toInt_inj.mp heq)
    have hgap' : (next.low.toInt : ℚ) + 1 ≤ road.fixed.toInt := by exact_mod_cast hgap
    have hedge := sub_one_le_lowEdge road.fixed
    rw [le_iff hfinite htravel] at hside
    rw [le_iff hlowFinite htravel, hlowValue]
    linarith
  · refine and_iff_left ?_
    have hgap : road.fixed.toInt + 1 ≤ next.high.toInt :=
      lt_of_le_of_ne hhigh fun heq => hback (Int32.toInt_inj.mp heq.symm)
    have hgap' : (road.fixed.toInt : ℚ) + 1 ≤ next.high.toInt := by exact_mod_cast hgap
    have hedge := highEdge_le_add_one road.fixed
    rw [le_iff htravel hfinite] at hside
    rw [le_iff htravel hhighFinite, hhighValue]
    linarith

/-- The tests of a turn, of a road that crosses that of the dog: it starts at the
centre line, or the candidate does not pass its end ahead. -/
theorem takes_iff (h : road.contact next = some .crossed) {start travel : Float}
    (hstart : road.Within road.axis.perpendicular start) (htravel : travel.isFinite = true)
    (hside : heading.Precedes start travel) :
    (next.liesAhead heading road.fixed = true ∨ next.covers travel = true) ↔
      (next.back heading = road.fixed ∨
        heading.Precedes travel (Coord.real (next.front heading))) := by
  rw [liesAhead_iff h]
  by_cases hback : next.back heading = road.fixed
  · exact iff_of_true (Or.inl hback) (Or.inl hback)
  · rw [covers_iff_precedes h hback hstart htravel hside]

end Road

/-! ## The road that is taken -/

namespace StreetMap

/-- The road `next` crosses the road `index`, and its centre line is within reach
at the coordinate `cross`. -/
structure CrossesAt (map : StreetMap) (index : ℕ) (cross : Float) (other : ℕ) (next : Road) :
    Prop where
  mem : other ∈ map.junctions.crossings index
  road_eq : map.road? other = some next
  reach : next.inReach cross = true

variable {map : StreetMap} {index other : ℕ} {road next : Road} {cross : Float}

theorem contact_of_crosses (hroad : map.road? index = some road)
    (hmem : other ∈ map.junctions.crossings index) (hnext : map.road? other = some next) :
    road.contact next = some .crossed := by
  obtain ⟨-, road', next', hroad', hnext', hcontact⟩ := mem_touching_iff.mp hmem
  rw [hroad] at hroad'
  rw [hnext] at hnext'
  rwa [Option.some.inj hroad', Option.some.inj hnext']

/-- Which roads cross within reach depends on the value of the coordinate only. -/
theorem crossesAt_congr {x y : Float} (hx : x.isFinite = true) (hy : y.isFinite = true)
    (h : value x = value y) :
    map.CrossesAt index x other next ↔ map.CrossesAt index y other next := by
  have hreach := next.inReach_congr hx hy h
  exact ⟨fun hcrosses => ⟨hcrosses.mem, hcrosses.road_eq, hreach.mp hcrosses.reach⟩,
    fun hcrosses => ⟨hcrosses.mem, hcrosses.road_eq, hreach.mpr hcrosses.reach⟩⟩

/-- A road with another one across it, which leads as far to the north as to the
south. -/
def crossroads : StreetMap where
  id := "crossroads"
  name := "Crossroads"
  roads := [.horizontal ⟨0, 0⟩ 10, .vertical ⟨4, -5⟩ 5]
  buildings := []
  offices := []
  dogSpeed := none
  roads_ne_nil := List.cons_ne_nil _ _
  offices_nodup := List.nodup_nil
  dogSpeed_usable := usable_of_mem_none

/-- No road crosses itself. -/
theorem not_mem_crossings_self (map : StreetMap) (index : ℕ) :
    index ∉ map.junctions.crossings index := fun hmem => (mem_touching_iff.mp hmem).1 rfl

/-- A crossing road is found when one is related as asked, and only then. -/
theorem crossingRoad?_spec (map : StreetMap) (index : ℕ) (cross : Float) (related : Road → Bool) :
    let found := map.crossingRoad? index fun other => related other && other.inReach cross
    (∀ other, found = some other →
      ∃ next, map.CrossesAt index cross other next ∧ related next = true) ∧
    (found = none → ∀ other next, map.CrossesAt index cross other next → related next = false) := by
  intro found
  constructor
  · intro other hfound
    have hrelated := List.find?_some hfound
    obtain ⟨next, hnext, hrelated⟩ := Option.any_eq_true _ _ |>.mp hrelated
    rw [Bool.and_eq_true] at hrelated
    exact ⟨next, ⟨List.mem_of_find?_eq_some hfound, hnext, hrelated.2⟩, hrelated.1⟩
  · intro hnone other next hcrosses
    have hrefused := List.find?_eq_none.mp hnone other hcrosses.mem
    rw [hcrosses.road_eq, Option.any_some, hcrosses.reach, Bool.and_true] at hrefused
    exact Bool.eq_false_iff.mpr hrefused

end StreetMap

namespace Motion

variable {map : StreetMap} {heading : Heading} {speed : Float} {velocity candidate : Vec}
  {time : Duration} {motion : Motion} {road next : Road}

/-- A turn enters a crossing road within reach that lies ahead or holds the
candidate; the dog is held where there is none. -/
theorem turn_cases (map : StreetMap) (road : Road) (heading : Heading) (motion : Motion)
    (candidate : Vec) :
    (∃ other next, map.CrossesAt motion.road (road.axis.component candidate) other next ∧
        (next.liesAhead heading road.fixed = true ∨
          next.covers (road.axis.perpendicular.component candidate) = true) ∧
        turn map road heading motion candidate = enter next other candidate motion.velocity) ∨
      (∀ other next, map.CrossesAt motion.road (road.axis.component candidate) other next →
        next.liesAhead heading road.fixed = false ∧
          next.covers (road.axis.perpendicular.component candidate) = false) ∧
        turn map road heading motion candidate = hold road motion candidate := by
  obtain ⟨hahead, hnoneAhead⟩ := map.crossingRoad?_spec motion.road
    (road.axis.component candidate) (·.liesAhead heading road.fixed)
  obtain ⟨hat, hnoneAt⟩ := map.crossingRoad?_spec motion.road
    (road.axis.component candidate) (·.covers (road.axis.perpendicular.component candidate))
  rw [← StreetMap.crossingAhead?] at hahead hnoneAhead
  rw [← StreetMap.crossingAt?] at hat hnoneAt
  unfold turn
  dsimp only
  cases htarget : (map.crossingAhead? motion.road road heading candidate).or
      (map.crossingAt? motion.road road candidate) with
  | none =>
      obtain ⟨hnone, hnone'⟩ := Option.or_eq_none_iff.mp htarget
      exact Or.inr ⟨fun other next hcrosses =>
        ⟨hnoneAhead hnone other next hcrosses, hnoneAt hnone' other next hcrosses⟩, rfl⟩
  | some other =>
      dsimp only
      left
      rcases Option.or_eq_some_iff.mp htarget with hfound | ⟨-, hfound⟩
      · obtain ⟨next, hcrosses, hrelated⟩ := hahead other hfound
        rw [hcrosses.road_eq]
        exact ⟨other, next, hcrosses, Or.inl hrelated, rfl⟩
      · obtain ⟨next, hcrosses, hrelated⟩ := hat other hfound
        rw [hcrosses.road_eq]
        exact ⟨other, next, hcrosses, Or.inr hrelated, rfl⟩

/-- A dog that enters a road with a candidate beside it or past its ends stops. -/
theorem velocity_enter_of_not_within {axis : Axis}
    (h : ¬ next.Within axis (axis.component candidate)) (index : ℕ) (velocity : Vec) :
    (enter next index candidate velocity).velocity = .zero := by
  have hmoves : next.moves candidate = true := by
    by_contra hstays
    rw [Bool.not_eq_true, ← Bool.not_eq_true', ← Road.contains, Road.contains_iff] at hstays
    exact h (hstays axis)
  rw [enter, hmoves, if_pos rfl]

/-- A candidate beyond the end ahead is brought back to the edge there, and the
dog stops. -/
theorem enter_of_passed (haxis : next.axis = road.axis.perpendicular)
    (hcandidate : candidate.isFinite = true)
    (hpassed : ¬ heading.Precedes (road.axis.perpendicular.component candidate)
      (next.frontEdge heading)) (index : ℕ) (velocity : Vec) :
    road.axis.perpendicular.component (enter next index candidate velocity).position =
        next.frontEdge heading ∧
      (enter next index candidate velocity).velocity = .zero := by
  have hfinite := isFinite_component hcandidate road.axis.perpendicular
  obtain ⟨hlow, hlowEdge⟩ := lowEdge_exact next.low
  obtain ⟨hhigh, hhighEdge⟩ := highEdge_exact next.high
  have hspan := lowEdge_le_highEdge next.low_le_high
  have hextent : next.extent road.axis.perpendicular = (next.low, next.high) := by
    rw [← haxis, Road.extent_axis]
  have hposition :
      road.axis.perpendicular.component (enter next index candidate velocity).position =
        clampTo (Coord.real next.low - halfWidth) (Coord.real next.high + halfWidth)
          (road.axis.perpendicular.component candidate) := by
    rw [enter, Road.component_clamp, hextent]
  have hstops (hoff : ¬ next.Within road.axis.perpendicular
      (road.axis.perpendicular.component candidate)) :
      (enter next index candidate velocity).velocity = .zero :=
    velocity_enter_of_not_within hoff index velocity
  rw [Road.Within, hextent] at hstops
  cases hforward : heading.isForward with
  | true =>
      simp only [Heading.Precedes, Road.frontEdge, hforward, if_true, not_le,
        le_iff hfinite hhigh] at hpassed ⊢
      have hinside : ¬ road.axis.perpendicular.component candidate <
          Coord.real next.low - halfWidth := by
        rw [lt_iff hfinite hlow]
        linarith
      rw [hposition, clampTo, if_neg hinside, if_pos ((lt_iff hhigh hfinite).mpr hpassed)]
      rw [hhighEdge] at hpassed
      exact ⟨rfl, hstops fun h => hpassed.not_ge h.2.2⟩
  | false =>
      simp only [Heading.Precedes, Road.frontEdge, hforward, Bool.false_eq_true, if_false, not_le,
        le_iff hlow hfinite] at hpassed ⊢
      rw [hposition, clampTo, if_pos ((lt_iff hfinite hlow).mpr hpassed)]
      rw [hlowEdge] at hpassed
      exact ⟨rfl, hstops fun h => hpassed.not_ge h.2.1⟩

/-- A turn of an anchored dog is taken exactly when some crossing road within
reach starts at the centre line, or ends no earlier than the candidate; a
candidate beyond the end of the road that is taken is brought back to it.
Otherwise the dog is held on its road. -/
theorem advance_turn_iff (hroad : map.road? motion.road = some road)
    (hcontains : road.contains motion.position = true) (hspeed : speed.isFinite = true)
    (hnonneg : (0.0 : Float) ≤ speed)
    (hturn : heading.axis? = some road.axis.perpendicular)
    (hcandidate : (motion.candidate (heading.velocity speed) time).isFinite = true) :
    let travel :=
      road.axis.perpendicular.component (motion.candidate (heading.velocity speed) time)
    ∃ after, motion.advance map heading (heading.velocity speed) time = .ok after ∧
      (after.road ∈ map.junctions.crossings motion.road ↔
        ∃ other next,
          map.CrossesAt motion.road (road.axis.component motion.position) other next ∧
          (next.back heading = road.fixed ∨
            heading.Precedes travel (Coord.real (next.front heading)))) ∧
      (after.road ∈ map.junctions.crossings motion.road →
        ∃ next, map.road? after.road = some next ∧
          (¬ heading.Precedes travel (next.frontEdge heading) →
            road.axis.perpendicular.component after.position = next.frontEdge heading ∧
              after.velocity = .zero)) ∧
      (after.road ∉ map.junctions.crossings motion.road → after.road = motion.road) := by
  intro travel
  have hfinite := isFinite_component hcandidate
  have hstart := within_of_contains hcontains
  have hcrosses (other : ℕ) (next : Road) :
      map.CrossesAt motion.road
          (road.axis.component (motion.candidate (heading.velocity speed) time)) other next ↔
        map.CrossesAt motion.road (road.axis.component motion.position) other next :=
    StreetMap.crossesAt_congr (hfinite _) (hstart _).1
      (value_candidate_of_turn (heading.commands_velocity hspeed) hturn (hfinite _))
  have hside : heading.Precedes (road.axis.perpendicular.component motion.position) travel :=
    precedes_candidate hspeed hnonneg hturn (hstart _).1 (hfinite _)
  have hrelated {other : ℕ} {next : Road}
      (h : map.CrossesAt motion.road (road.axis.component motion.position) other next) :
      (next.liesAhead heading road.fixed = true ∨ next.covers travel = true) ↔
        (next.back heading = road.fixed ∨
          heading.Precedes travel (Coord.real (next.front heading))) :=
    Road.takes_iff (StreetMap.contact_of_crosses hroad h.mem h.road_eq) (hstart _) (hfinite _)
      hside
  rw [advance_eq hroad, if_pos hcandidate, if_pos hturn]
  refine ⟨_, rfl, ?_⟩
  rcases turn_cases map road heading (motion.withVelocity (heading.velocity speed))
      (motion.candidate (heading.velocity speed) time) with
    ⟨other, next, hother, hchosen, henter⟩ | ⟨hnone, hhold⟩
  · have hother' := (hcrosses other next).mp hother
    have hcontact := StreetMap.contact_of_crosses hroad hother.mem hother.road_eq
    have haxis : next.axis = road.axis.perpendicular :=
      Axis.eq_perpendicular_of_ne (Road.contact_eq_crossed_iff.mp hcontact).1.symm
    rw [henter]
    refine ⟨iff_of_true hother.mem ⟨other, next, hother', (hrelated hother').mp hchosen⟩, ?_, ?_⟩
    · intro _
      exact ⟨next, hother.road_eq, fun hpassed => enter_of_passed haxis hcandidate hpassed _ _⟩
    · intro habsent
      exact absurd hother.mem habsent
  · have habsent := map.not_mem_crossings_self motion.road
    rw [hhold]
    refine ⟨iff_of_false habsent ?_, fun hmem => absurd hmem habsent, fun _ => rfl⟩
    rintro ⟨other, next, hother, hchosen⟩
    obtain ⟨hbehind, huncovered⟩ := hnone other next ((hcrosses other next).mpr hother)
    rcases (hrelated hother).mpr hchosen with hahead | hcovers
    · exact Bool.false_ne_true (hbehind.symm.trans hahead)
    · exact Bool.false_ne_true (huncovered.symm.trans hcovers)

/-- A dog near a crossing, off the centre line of its road, turns north and
stops short of the end of the crossing road. -/
theorem advance_turn_iff_crossroads :
    ∃ after, (Motion.mk 0 ⟨4.25, 0.25⟩ .zero).advance .crossroads .north
        (Heading.north.velocity 4.0) ⟨1000000000⟩ = .ok after ∧
      after.road ∈ StreetMap.crossroads.junctions.crossings 0 := by
  have hroad : StreetMap.crossroads.road? 0 = some (.horizontal ⟨0, 0⟩ 10) := rfl
  obtain ⟨after, hafter, htaken, -⟩ :=
    @advance_turn_iff .crossroads .north 4.0 ⟨1000000000⟩ ⟨0, ⟨4.25, 0.25⟩, .zero⟩ _ hroad
      (by decide +kernel) (by decide +kernel) (by decide +kernel) rfl (by decide +kernel)
  refine ⟨after, hafter, htaken.mpr ⟨1, .vertical ⟨4, -5⟩ 5, ⟨?_, rfl, ?_⟩, Or.inr ?_⟩⟩
  · decide +kernel
  · decide +kernel
  · decide +kernel

/-- It is not true that every turn at a crossing is taken: the same road leads
five units to the north, but a dog that would get ten units far is held on its
road. -/
theorem overshot_turn_refused :
    StreetMap.crossroads.CrossesAt 0 4.0 1 (.vertical ⟨4, -5⟩ 5) ∧
      (Road.vertical ⟨4, -5⟩ 5).front .north < (Road.horizontal ⟨0, 0⟩ 10).fixed ∧
      (Motion.mk 0 ⟨4.0, 0.0⟩ .zero).advance .crossroads .north (Heading.north.velocity 10.0)
        ⟨1000000000⟩ = .ok ⟨0, ⟨4.0, -0.4⟩, .zero⟩ := by
  refine ⟨⟨?_, rfl, ?_⟩, ?_, ?_⟩
  · decide +kernel
  · decide +kernel
  · decide +kernel
  · decide +kernel

end Motion

end StreetDogs
