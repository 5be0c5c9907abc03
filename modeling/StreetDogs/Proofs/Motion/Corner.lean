import StreetDogs.Proofs.Motion.Crossing

/-!
# Turns at the end of a road

A dog that was stopped at the end of a road stands on the edge there, and the
edge is a rounded sum.  The reach test of a road across that end is exact, so it
fails as soon as the sum was rounded away from the road.  That depends on the
binary digits of the half-width below the last place of the edge: they repeat
with period four, and rounding goes away from the road for two exponents out of
four.
-/

namespace StreetDogs

open Binary Binary64

/-- The whole part of the distance from zero to the edge above a coordinate. -/
def wholeEdge (n : ℤ) : ℕ := if 0 ≤ n then n.toNat else (-n - 1).toNat

/-- Rounding brings the edge above a coordinate no farther away from it: the
exponent of the edge is 0 or 1 modulo 4. -/
def RoundsInward (n : ℤ) : Prop := (wholeEdge n).log2 % 4 < 2

instance (n : ℤ) : Decidable (RoundsInward n) := inferInstanceAs (Decidable (_ < _))

private theorem wholeEdge_le (n : ℤ) :
    (wholeEdge n : ℚ) ≤ |n + halfWidthValue| ∧ |n + halfWidthValue| < wholeEdge n + 1 := by
  have hpos : 0 < halfWidthValue := by
    rw [halfWidthValue_eq]
    norm_num
  have hhalf := halfWidthValue_lt_half
  rw [wholeEdge]
  split_ifs with hn
  · have hwhole : ((n.toNat : ℤ) : ℚ) = n := by rw [Int.toNat_of_nonneg hn]
    have hcast : (0 : ℚ) ≤ n := by exact_mod_cast hn
    rw [← Int.cast_natCast, hwhole, abs_of_nonneg (by linarith)]
    constructor <;> linarith
  · have hwhole : (((-n - 1).toNat : ℤ) : ℚ) = -n - 1 := by
      rw [Int.toNat_of_nonneg (by omega)]
      push_cast
      ring
    have hcast : (n : ℚ) ≤ -1 := by exact_mod_cast (show n ≤ -1 by omega)
    rw [← Int.cast_natCast, hwhole, abs_of_neg (by linarith)]
    constructor <;> linarith

/-- The digits of the half-width below the last place of a number with exponent
`k` are rounded down for two exponents out of four. -/
private theorem nearestEven_halfWidth_le_iff : ∀ k < 32,
    (nearestEven (3602879701896397 / 2 ^ 53 * 2 ^ (52 - k)) : ℚ) ≤
      3602879701896397 / 2 ^ 53 * 2 ^ (52 - k) ↔ k % 4 < 2 := by
  decide +kernel

/-- An edge above a coordinate that is not next to zero is rounded to the last
place of its exponent, which divides the coordinate. -/
private theorem nearest_add_halfWidth {n : ℤ} (hwhole : wholeEdge n ≠ 0)
    (hsmall : (wholeEdge n).log2 < 52) :
    nearest .binary64 (n + halfWidthValue) =
      n + nearestEven (halfWidthValue * 2 ^ (52 - (wholeEdge n).log2)) /
        2 ^ (52 - (wholeEdge n).log2) := by
  obtain ⟨hlow, hhigh⟩ := wholeEdge_le n
  have hlog := log_mul_zpow 0 (Nat.pos_of_ne_zero hwhole) hlow hhigh
  rw [zpow_zero, mul_one, add_zero] at hlog
  obtain ⟨t, ht⟩ : ∃ t, 52 - (wholeEdge n).log2 = t + 1 := ⟨51 - (wholeEdge n).log2, by omega⟩
  have hulp : ulpExponent .binary64 (n + halfWidthValue) = -((t + 1 : ℕ) : ℤ) := by
    rw [ulpExponent, hlog, minExponent_binary64]
    change max (((wholeEdge n).log2 : ℤ) - (52 : ℕ)) (-1074) = _
    omega
  have hscaled : (n + halfWidthValue) / 2 ^ (-((t + 1 : ℕ) : ℤ)) =
      halfWidthValue * 2 ^ (t + 1) + (n * 2 ^ (t + 1) : ℤ) := by
    rw [zpow_neg, zpow_natCast, div_inv_eq_mul]
    push_cast
    ring
  have heven : n * 2 ^ (t + 1) % 2 = 0 := by
    rw [pow_succ, ← mul_assoc]
    exact Int.mul_emod_left _ _
  rw [nearest, hulp, hscaled, nearestEven_add_of_even _ heven, ht, zpow_neg, zpow_natCast]
  push_cast
  field_simp
  ring

/-- The edge above a coordinate is within the half-width of it when it is
rounded inward. -/
theorem nearest_sub_le_iff_roundsInward {n : ℤ} (hn : |n| ≤ 2 ^ 31) :
    nearest .binary64 (n + halfWidthValue) - n ≤ halfWidthValue ↔ RoundsInward n := by
  rw [RoundsInward]
  by_cases hwhole : wholeEdge n = 0
  · rw [hwhole]
    refine iff_of_true ?_ (by decide)
    have hbound : n = 0 ∨ n = -1 := by
      rw [wholeEdge] at hwhole
      split_ifs at hwhole <;> omega
    have hexact : Representable .binary64 (n + halfWidthValue) := by
      refine ⟨n * 2 ^ 53 + 3602879701896397, -53, ?_, by norm_num, ?_⟩
      · rcases hbound with rfl | rfl <;> norm_num
      · rw [halfWidthValue_eq, zpow_neg]
        push_cast
        norm_num
        ring
    rw [nearest_of_representable hexact]
    linarith
  · have hlog : (wholeEdge n).log2 < 32 := by
      rw [Nat.log2_lt hwhole]
      rw [abs_le] at hn
      rw [wholeEdge]
      split_ifs <;> omega
    have hpos : (0 : ℚ) < 2 ^ (52 - (wholeEdge n).log2) := by positivity
    rw [nearest_add_halfWidth hwhole (by omega), add_sub_cancel_left, div_le_iff₀ hpos,
      ← nearestEven_halfWidth_le_iff _ hlog, halfWidthValue_eq]

example : ∀ n < 256, RoundsInward (n : ℕ) ↔ n < 4 ∨ 16 ≤ n ∧ n < 64 := by decide +kernel

/-! ## The ends of a road -/

inductive RoadEnd where
  | low
  | high
deriving DecidableEq, Repr

namespace RoadEnd

def edge : RoadEnd → Coord → Float
  | low, c => Coord.real c - halfWidth
  | high, c => Coord.real c + halfWidth

/-- The edge of a road that ends at a coordinate was rounded towards the road,
or not at all. -/
def RoundsInward : RoadEnd → Coord → Prop
  | low, c => StreetDogs.RoundsInward (-c.toInt)
  | high, c => StreetDogs.RoundsInward c.toInt

instance (e : RoadEnd) (c : Coord) : Decidable (e.RoundsInward c) :=
  match e with
  | low => inferInstanceAs (Decidable (StreetDogs.RoundsInward _))
  | high => inferInstanceAs (Decidable (StreetDogs.RoundsInward _))

theorem isFinite_edge (e : RoadEnd) (c : Coord) : (e.edge c).isFinite = true :=
  match e with
  | low => (lowEdge_exact c).1
  | high => (highEdge_exact c).1

/-- The edge of a road is within the half-width of its end when it is rounded
inward. -/
theorem abs_sub_edge_le_iff (e : RoadEnd) (c : Coord) :
    |c.toInt - value (e.edge c)| ≤ halfWidthValue ↔ e.RoundsInward c := by
  cases e with
  | low =>
      have hvalue : value (RoadEnd.low.edge c) = lowEdge c := (lowEdge_exact c).2
      have hneg : nearest .binary64 ((-c.toInt : ℤ) + halfWidthValue) = -lowEdge c := by
        rw [lowEdge, ← nearest_neg]
        congr 1
        push_cast
        ring
      have hle := lowEdge_le c
      rw [RoundsInward, ← nearest_sub_le_iff_roundsInward (by rw [abs_neg]; exact c.abs_toInt_le),
        hneg, hvalue, abs_of_nonneg (by linarith)]
      push_cast
      rw [neg_sub_neg]
  | high =>
      have hvalue : value (RoadEnd.high.edge c) = highEdge c := (highEdge_exact c).2
      have hle := le_highEdge c
      rw [RoundsInward, ← nearest_sub_le_iff_roundsInward c.abs_toInt_le, hvalue,
        abs_sub_comm, abs_of_nonneg (by linarith), highEdge]

end RoadEnd

namespace Road

def endCoord (road : Road) : RoadEnd → Coord
  | .low => road.low
  | .high => road.high

variable {road other : Road}

/-- A dog on the edge of a road is within reach of a road across that end when
the edge is rounded inward. -/
theorem inReach_edge_iff (e : RoadEnd) (other : Road) :
    other.inReach (e.edge other.fixed) = true ↔ e.RoundsInward other.fixed := by
  rw [other.inReach_iff (e.isFinite_edge _), RoadEnd.abs_sub_edge_le_iff]

/-- No other road that crosses the road is within reach of a dog on the edge. -/
theorem fixed_eq_of_inReach_edge (e : RoadEnd) (h : road.contact other = some .crossed)
    (hreach : other.inReach (e.edge (road.endCoord e)) = true) :
    other.fixed = road.endCoord e := by
  rw [other.inReach_iff (e.isFinite_edge _), abs_le] at hreach
  obtain ⟨-, hspans, -⟩ := contact_eq_crossed_iff.mp h
  obtain ⟨hlow, hhigh⟩ := (spans_iff _ _).mp hspans
  have hhalf := halfWidthValue_lt_half
  rw [Int32.le_iff_toInt_le] at hlow hhigh
  rw [← Int32.toInt_inj]
  cases e with
  | low =>
      have hvalue : value (RoadEnd.low.edge road.low) = lowEdge road.low :=
        (lowEdge_exact road.low).2
      rw [endCoord, hvalue] at hreach
      have hedge := lowEdge_le road.low
      have hgap : (other.fixed.toInt : ℚ) < road.low.toInt + 1 := by linarith
      have hgap' : other.fixed.toInt < road.low.toInt + 1 := by exact_mod_cast hgap
      rw [endCoord]
      omega
  | high =>
      have hvalue : value (RoadEnd.high.edge road.high) = highEdge road.high :=
        (highEdge_exact road.high).2
      rw [endCoord, hvalue] at hreach
      have hedge := le_highEdge road.high
      have hgap : (road.high.toInt : ℚ) < other.fixed.toInt + 1 := by linarith
      have hgap' : road.high.toInt < other.fixed.toInt + 1 := by exact_mod_cast hgap
      rw [endCoord]
      omega

/-- The coordinates that clamping into a road leaves alone across it are all
within its reach exactly when both its edges are rounded inward. -/
theorem within_imp_inReach_iff (other : Road) :
    (∀ cross, other.Within other.axis.perpendicular cross → other.inReach cross = true) ↔
      ∀ e : RoadEnd, e.RoundsInward other.fixed := by
  obtain ⟨hlowFinite, hlowValue⟩ := lowEdge_exact other.fixed
  obtain ⟨hhighFinite, hhighValue⟩ := highEdge_exact other.fixed
  have hle := lowEdge_le_highEdge (Int32.le_refl other.fixed)
  constructor
  · intro h e
    rw [← inReach_edge_iff]
    apply h
    rw [Within, extent_perpendicular]
    cases e with
    | low => exact ⟨hlowFinite, hlowValue.ge, hlowValue.trans_le hle⟩
    | high => exact ⟨hhighFinite, hle.trans_eq hhighValue.symm, hhighValue.le⟩
  · rintro h cross ⟨hfinite, hbelow, habove⟩
    rw [extent_perpendicular] at hbelow habove
    have hlow := (RoadEnd.abs_sub_edge_le_iff .low other.fixed).mpr (h .low)
    have hhigh := (RoadEnd.abs_sub_edge_le_iff .high other.fixed).mpr (h .high)
    rw [RoadEnd.edge, hlowValue, abs_le] at hlow
    rw [RoadEnd.edge, hhighValue, abs_le] at hhigh
    rw [other.inReach_iff hfinite, abs_le]
    constructor <;> linarith

end Road

/-- A road with other roads across both its ends. -/
def StreetMap.corners : StreetMap where
  id := "corners"
  name := "Corners"
  roads := [.horizontal ⟨0, 0⟩ 10, .vertical ⟨10, 0⟩ 10, .vertical ⟨0, 0⟩ 10]
  buildings := []
  offices := []
  dogSpeed := none
  roads_ne_nil := List.cons_ne_nil _ _
  offices_nodup := List.nodup_nil
  dogSpeed_usable := StreetMap.usable_of_mem_none

namespace Motion

variable {map : StreetMap} {heading : Heading} {speed : Float} {time : Duration}
  {motion : Motion} {road next : Road} {other : ℕ}

/-- A dog on the edge of its road turns onto a road across that end, which holds
the candidate, exactly when the edge is rounded inward; otherwise it is held.  So
only for some coordinates do the edges of a road agree with its reach. -/
theorem advance_corner_iff (hroad : map.road? motion.road = some road) (e : RoadEnd)
    (hedge : road.axis.component motion.position = e.edge (road.endCoord e))
    (hother : other ∈ map.junctions.crossings motion.road) (hnext : map.road? other = some next)
    (hfixed : next.fixed = road.endCoord e) (hspeed : speed.isFinite = true)
    (hturn : heading.axis? = some road.axis.perpendicular)
    (hcandidate : (motion.candidate (heading.velocity speed) time).isFinite = true)
    (hcovers : next.covers (road.axis.perpendicular.component
      (motion.candidate (heading.velocity speed) time)) = true) :
    (∃ after, motion.advance map heading (heading.velocity speed) time = .ok after ∧
      (after.road ∈ map.junctions.crossings motion.road ↔ e.RoundsInward (road.endCoord e)) ∧
      (¬ e.RoundsInward (road.endCoord e) → after.road = motion.road)) ∧
    ((∀ cross, next.Within next.axis.perpendicular cross → next.inReach cross = true) ↔
      ∀ e : RoadEnd, e.RoundsInward next.fixed) := by
  refine ⟨?_, next.within_imp_inReach_iff⟩
  have hkept : value (road.axis.component (motion.candidate (heading.velocity speed) time)) =
      value (e.edge (road.endCoord e)) := by
    rw [← hedge]
    exact value_candidate_of_turn (heading.commands_velocity hspeed) hturn
      (isFinite_component hcandidate _)
  have hreach (crossing : Road) :
      crossing.inReach (road.axis.component (motion.candidate (heading.velocity speed) time)) =
          true ↔ crossing.inReach (e.edge (road.endCoord e)) = true :=
    crossing.inReach_congr (isFinite_component hcandidate _) (e.isFinite_edge _) hkept
  rw [advance_eq hroad, if_pos hcandidate, if_pos hturn]
  refine ⟨_, rfl, ?_⟩
  rcases turn_cases map road heading (motion.withVelocity (heading.velocity speed))
      (motion.candidate (heading.velocity speed) time) with
    ⟨taken, crossing, htaken, -, henter⟩ | ⟨hnone, hhold⟩
  · have hcontact := StreetMap.contact_of_crosses hroad htaken.mem htaken.road_eq
    have hclose := (hreach crossing).mp htaken.reach
    have hat := Road.fixed_eq_of_inReach_edge e hcontact hclose
    rw [← hat, Road.inReach_edge_iff, hat] at hclose
    rw [henter]
    exact ⟨iff_of_true htaken.mem hclose, fun hoff => absurd hclose hoff⟩
  · have hoff : ¬ e.RoundsInward (road.endCoord e) := by
      rw [← hfixed, ← Road.inReach_edge_iff, hfixed, ← hreach]
      intro hclose
      exact Bool.false_ne_true ((hnone other next ⟨hother, hnext, hclose⟩).2.symm.trans hcovers)
    rw [hhold]
    exact ⟨iff_of_false (map.not_mem_crossings_self motion.road) hoff, fun _ => rfl⟩

/-- A dog on the edge at the west end of its road turns the corner to the south. -/
theorem advance_corner_iff_west :
    ∃ after, (Motion.mk 0 ⟨-0.4, 0.25⟩ .zero).advance .corners .south
        (Heading.south.velocity 1.0) ⟨1000000000⟩ = .ok after ∧
      after.road ∈ StreetMap.corners.junctions.crossings 0 := by
  have hroad : StreetMap.corners.road? 0 = some (.horizontal ⟨0, 0⟩ 10) := rfl
  have hnext : StreetMap.corners.road? 2 = some (.vertical ⟨0, 0⟩ 10) := rfl
  obtain ⟨⟨after, hafter, htaken, -⟩, -⟩ :=
    @advance_corner_iff .corners .south 1.0 ⟨1000000000⟩ ⟨0, ⟨-0.4, 0.25⟩, .zero⟩ _ _ 2 hroad
      .low (by decide +kernel) (by decide +kernel) hnext (by decide +kernel) (by decide +kernel) rfl
      (by decide +kernel) (by decide +kernel)
  exact ⟨after, hafter, htaken.mpr (by decide +kernel)⟩

/-- It is not true that the edges of a road agree with its reach: a dog that was
stopped at the east end of its road, where another road leads south from the
same point, is held when it is sent south. -/
theorem corner_turn_refused :
    (Motion.mk 0 ⟨9.0, 0.0⟩ .zero).advance .corners .east (Heading.east.velocity 5.0)
        ⟨1000000000⟩ = .ok ⟨0, ⟨Coord.real 10 + halfWidth, 0.0⟩, .zero⟩ ∧
      (Road.vertical ⟨10, 0⟩ 10).contains ⟨Coord.real 10 + halfWidth, 0.0⟩ = true ∧
      1 ∈ StreetMap.corners.junctions.crossings 0 ∧
      StreetMap.corners.road? 1 = some (.vertical ⟨10, 0⟩ 10) ∧
      (Motion.mk 0 ⟨Coord.real 10 + halfWidth, 0.0⟩ .zero).advance .corners .south
        (Heading.south.velocity 1.0) ⟨1000000000⟩ =
          .ok ⟨0, ⟨Coord.real 10 + halfWidth, 0.4⟩, .zero⟩ := by
  refine ⟨?_, ?_, ?_, rfl, ?_⟩
  · decide +kernel
  · decide +kernel
  · decide +kernel
  · decide +kernel

end Motion

end StreetDogs
