import StreetDogs.Proofs.Motion.Walk

/-!
# Driving in legs

A drive straight on comes to the same whether it is taken at once or in legs.
Every road that a leg leaves is also left on the way to a candidate farther on,
so the legs follow the roads of the whole drive, and a dog that a leg holds back
stands on a road that nothing prolongs.
-/

namespace StreetDogs

open Binary64

namespace Heading

/-- The end of a road over which the heading leads out of it. -/
def exit (heading : Heading) : RoadEnd := if heading.isForward then .high else .low

theorem precedes_iff (heading : Heading) {x y : Float} (hx : x.isFinite = true)
    (hy : y.isFinite = true) :
    heading.Precedes x y ↔ heading.exit.outward (value x) ≤ heading.exit.outward (value y) := by
  rw [Precedes, exit]
  split_ifs with hforward
  · exact le_iff hx hy
  · rw [le_iff hy hx]
    exact neg_le_neg_iff.symm

end Heading

namespace Road

variable {road : Road} {e : RoadEnd} {x : Float}

/-- A finite coordinate lies between the edges along the road when it lies beyond
neither end. -/
theorem within_axis_iff (hx : x.isFinite = true) :
    road.Within road.axis x ↔ ∀ e, ¬ road.Passed e (value x) := by
  have hlow : ¬ road.Passed .low (value x) ↔ lowEdge road.low ≤ value x := by
    rw [← (lowEdge_exact road.low).2, Passed, not_lt]
    exact neg_le_neg_iff
  have hhigh : ¬ road.Passed .high (value x) ↔ value x ≤ highEdge road.high := by
    rw [← (highEdge_exact road.high).2, Passed, not_lt]
    rfl
  rw [Within, extent_axis, and_iff_right hx, ← hlow, ← hhigh]
  constructor
  · rintro ⟨habove, hbelow⟩ (_ | _)
    · exact habove
    · exact hbelow
  · exact fun h => ⟨h .low, h .high⟩

end Road

namespace StreetMap

variable {map : StreetMap} {near far : Vec} {index next last : ℕ} {road : Road} {e : RoadEnd}

/-- A road that is left on the way to a candidate is left for the same road on
the way to one farther on. -/
theorem Continues.mono (hroad : map.road? index = some road)
    (hnear : (road.axis.component near).isFinite = true)
    (hfar : (road.axis.component far).isFinite = true)
    (hbehind : ¬ road.Passed e.opposite (value (road.axis.component near)))
    (hle : e.outward (value (road.axis.component near)) ≤
      e.outward (value (road.axis.component far)))
    (h : map.Continues near index next) : map.Continues far index next := by
  obtain ⟨e', hpassed, hleast⟩ := (continuation?_eq_some_iff hroad hnear).mp h
  obtain rfl : e' = e :=
    (e.eq_or_eq_opposite e').resolve_right fun heq => hbehind (heq ▸ hpassed)
  exact (continuation?_eq_some_iff hroad hfar).mpr ⟨e', hpassed.mono hle, hleast⟩

/-- The steps towards a candidate are steps towards one farther on, they stay
on the line, and the road reached is not passed at the end behind. -/
theorem chain_mono (hroad : map.road? index = some road)
    (hnear : (road.axis.component near).isFinite = true)
    (hfar : (road.axis.component far).isFinite = true)
    (hbehind : ¬ road.Passed e.opposite (value (road.axis.component near)))
    (hle : e.outward (value (road.axis.component near)) ≤
      e.outward (value (road.axis.component far)))
    (hchain : Relation.ReflTransGen (map.Continues near) index last) :
    Relation.ReflTransGen (map.Continues far) index last ∧ ∃ lastRoad,
      map.road? last = some lastRoad ∧ road.SameLine lastRoad ∧
        ¬ lastRoad.Passed e.opposite (value (road.axis.component near)) := by
  induction hchain with
  | refl => exact ⟨.refl, road, hroad, .refl road, hbehind⟩
  | tail _ hstep ih =>
      obtain ⟨hbefore, middle, hmiddle, hline, hbehind'⟩ := ih
      rw [← hline.1] at hnear hfar hle hbehind' ⊢
      obtain ⟨-, lastRoad, hlast, hprolonged, hbehind''⟩ :=
        step_of_continuation? hmiddle hnear hbehind' hstep
      rw [hprolonged.line.1] at hbehind''
      exact ⟨hbefore.tail (hstep.mono hmiddle hnear hfar hbehind' hle), lastRoad, hlast,
        hline.trans hprolonged.line, hbehind''⟩

/-- Driving on from the anchor of a leg leads to the anchor of the whole drive. -/
theorem anchor_anchor (hroad : map.road? index = some road)
    (hnear : (road.axis.component near).isFinite = true)
    (hfar : (road.axis.component far).isFinite = true)
    (hbehind : ¬ road.Passed e.opposite (value (road.axis.component near)))
    (hle : e.outward (value (road.axis.component near)) ≤
      e.outward (value (road.axis.component far))) :
    map.anchor far (map.anchor near index) = map.anchor far index := by
  obtain ⟨hchain, middle, hmiddle, hline, -⟩ :=
    chain_mono hroad hnear hfar hbehind hle (map.chain_anchor near index)
  have hstays := continuation?_anchor hmiddle (hline.1 ▸ hfar)
  exact (anchor_eq_of_chain hroad hfar
    (hchain.trans (map.chain_anchor far (map.anchor near index))) hstays).symm

/-- A dog that stays on its road although the candidate lies past the end stays on
the way to every candidate farther on. -/
theorem continuation?_of_passed (hroad : map.road? index = some road)
    (hnear : (road.axis.component near).isFinite = true)
    (hfar : (road.axis.component far).isFinite = true)
    (hpassed : road.Passed e (value (road.axis.component near)))
    (hle : e.outward (value (road.axis.component near)) ≤
      e.outward (value (road.axis.component far)))
    (h : map.continuation? near index = none) : map.continuation? far index = none := by
  cases hnext : map.continuation? far index with
  | none => rfl
  | some next =>
      obtain ⟨e', hpassed', hleast⟩ := (continuation?_eq_some_iff hroad hfar).mp hnext
      obtain rfl := (hpassed.mono hle).unique hpassed'
      have hleaves := (continuation?_eq_some_iff hroad hnear).mpr ⟨e', hpassed, hleast⟩
      rw [h] at hleaves
      cases hleaves

end StreetMap

namespace Motion

variable {map : StreetMap} {motion : Motion} {road : Road} {index : ℕ}
  {candidate near far velocity : Vec} {heading : Heading} {e : RoadEnd}

/-- A dog that is not held back keeps its velocity. -/
theorem velocity_haltWithin_of_within
    (h : road.Within road.axis (road.axis.component candidate)) :
    (haltWithin road index candidate velocity).velocity = velocity := by
  rw [← Road.clampTo_extent_beq_iff, Road.extent_axis] at h
  exact if_pos h

/-- Where a dog is held back, its velocity is forgotten. -/
theorem haltWithin_of_not_within (h : ¬ road.Within road.axis (road.axis.component candidate))
    (index : ℕ) (velocity velocity' : Vec) :
    haltWithin road index candidate velocity = haltWithin road index candidate velocity' := by
  rw [← Road.clampTo_extent_beq_iff, Road.extent_axis] at h
  unfold haltWithin
  dsimp only
  rw [if_neg h, if_neg h]

/-- A drive halts within its anchor. -/
theorem drive_eq_haltWithin (h : map.road? (map.anchor candidate motion.road) = some road) :
    drive map motion candidate =
      haltWithin road (map.anchor candidate motion.road) candidate motion.velocity := by
  rw [drive, h]

/-- A drive that is interrupted at a candidate on its way comes to the same as
one that is not. -/
theorem drive_drive (hroad : map.road? motion.road = some road)
    (hnear : (road.axis.component near).isFinite = true)
    (hfar : (road.axis.component far).isFinite = true)
    (hbehind : ¬ road.Passed e.opposite (value (road.axis.component near)))
    (hle : e.outward (value (road.axis.component near)) ≤
      e.outward (value (road.axis.component far))) :
    drive map (drive map motion near) far = drive map motion far := by
  obtain ⟨hchain, middle, hmiddle, hline, hbehind'⟩ :=
    StreetMap.chain_mono hroad hnear hfar hbehind hle (map.chain_anchor near motion.road)
  have hstays := StreetMap.continuation?_anchor hroad hnear
  obtain ⟨last, hlast, -⟩ := StreetMap.exists_road_anchor hroad hfar
  have hwhole := drive_eq_haltWithin hlast
  have hanchor := StreetMap.anchor_anchor hroad hnear hfar hbehind hle
  rw [← hanchor] at hlast hwhole
  rw [hwhole, drive_eq_haltWithin hmiddle]
  rw [← hline.1] at hnear hfar hle hbehind'
  refine (drive_eq_haltWithin hlast).trans ?_
  by_cases hheld : middle.Within middle.axis (middle.axis.component near)
  · exact congrArg (haltWithin last _ far) (velocity_haltWithin_of_within hheld)
  · -- Held back at the first candidate, the dog stays on that road and is held back again.
    rw [Road.within_axis_iff hnear, not_forall] at hheld
    obtain ⟨e', hpassed⟩ := hheld
    rw [not_not] at hpassed
    obtain rfl : e' = e :=
      (e.eq_or_eq_opposite e').resolve_right fun heq => hbehind' (heq ▸ hpassed)
    have hstays' := StreetMap.continuation?_of_passed hmiddle hnear hfar hpassed hle hstays
    have hkept := StreetMap.anchor_eq_of_chain hmiddle hfar .refl hstays'
    rw [hkept, hmiddle] at hlast
    obtain rfl := Option.some.inj hlast
    apply haltWithin_of_not_within
    rw [Road.within_axis_iff hfar]
    exact fun hneither => hneither e' (hpassed.mono hle)

/-- A drive in any number of legs. -/
private theorem foldl_drive (hroad : map.road? motion.road = some road) (legs : List Vec)
    (last : Vec) (hfinite : ∀ leg ∈ legs ++ [last], (road.axis.component leg).isFinite = true)
    (hbehind : ∀ leg ∈ legs, ¬ road.Passed e.opposite (value (road.axis.component leg)))
    (hchain : (legs ++ [last]).IsChain fun near far =>
      e.outward (value (road.axis.component near)) ≤ e.outward (value (road.axis.component far))) :
    (legs ++ [last]).foldl (drive map) motion = drive map motion last := by
  induction legs using List.reverseRecOn generalizing last with
  | nil => rfl
  | append_singleton legs leg ih =>
      rw [List.append_assoc, List.singleton_append, List.isChain_append_cons_cons] at hchain
      rw [List.foldl_concat, ih leg ?_ ?_ hchain.1]
      · exact drive_drive hroad (hfinite leg (by simp)) (hfinite last (by simp))
          (hbehind leg (by simp)) hchain.2.1
      · exact fun other hother => hfinite other (List.mem_append_left [last] hother)
      · exact fun other hother => hbehind other (List.mem_append_left [leg] hother)

/-- A dog that drives straight on in legs, each of which leads farther in the
direction of its heading, ends in the same state as one that drives at once to
the last of the candidates, wherever it was held back in between. -/
theorem drive_legs (hroad : map.road? motion.road = some road)
    (hcontains : road.contains motion.position = true) (legs : List Vec) (last : Vec)
    (hfinite : ∀ leg ∈ legs ++ [last], leg.isFinite = true)
    (hchain : (motion.position :: (legs ++ [last])).IsChain fun near far =>
      heading.Precedes (road.axis.component near) (road.axis.component far)) :
    (legs ++ [last]).foldl (drive map) motion = drive map motion last := by
  have hstart := within_of_contains hcontains road.axis
  have hfinite' : ∀ leg ∈ motion.position :: (legs ++ [last]),
      (road.axis.component leg).isFinite = true := by
    intro leg hleg
    rcases List.mem_cons.mp hleg with rfl | hleg
    · exact hstart.1
    · exact isFinite_component (hfinite leg hleg) road.axis
  have hordered : (motion.position :: (legs ++ [last])).IsChain fun near far =>
      heading.exit.outward (value (road.axis.component near)) ≤
        heading.exit.outward (value (road.axis.component far)) :=
    hchain.imp_of_mem_imp fun near far hnear hfar =>
      (heading.precedes_iff (hfinite' near hnear) (hfinite' far hfar)).mp
  refine foldl_drive (e := heading.exit) hroad legs last
    (fun leg hleg => hfinite' leg (List.mem_cons_of_mem _ hleg)) ?_ hordered.tail
  have hbehind := (Road.within_axis_iff hstart.1).mp hstart heading.exit.opposite
  have hnone := hordered.cons_induction
    (fun leg => ¬ road.Passed heading.exit.opposite (value (road.axis.component leg))) _
    (fun near far hle hnear hfar => hnear (hfar.mono (by simpa using hle))) hbehind
  exact fun leg hleg => hnone leg (List.mem_append_left [last] hleg)

/-- A drive over two roads, interrupted where the first one ends, on the second
one, and where the dog is held back. -/
theorem drive_legs_threeRoads :
    [⟨10.25, 0.25⟩, ⟨12.0, 0.25⟩, ⟨21.0, 0.25⟩, ⟨30.0, 0.25⟩].foldl (drive .threeRoads)
        ⟨0, ⟨9.5, 0.25⟩, .east⟩ =
      drive .threeRoads ⟨0, ⟨9.5, 0.25⟩, .east⟩ ⟨30.0, 0.25⟩ := by
  have hroad : StreetMap.threeRoads.road? 0 = some (.horizontal ⟨0, 0⟩ 10) := rfl
  exact @drive_legs .threeRoads ⟨0, ⟨9.5, 0.25⟩, .east⟩ _ .east hroad (by decide +kernel)
    [⟨10.25, 0.25⟩, ⟨12.0, 0.25⟩, ⟨21.0, 0.25⟩] ⟨30.0, 0.25⟩ (by decide +kernel)
    (by decide +kernel)

end Motion

end StreetDogs
