import StreetDogs.Proofs.Motion.Symmetry

/-!
# Motion under the symmetries of the grid

A step of motion commutes with the symmetries.  Vectors are compared by the
values of their coordinates, as negation exchanges the two zeros.  The searches
for roads find the same index on the image of a map, the clamps bring images to
images, and so a step on the image of a map takes the image of a motion to the
image of what it comes to.
-/

namespace StreetDogs

open Binary Binary64

namespace Motion

variable {road : Road} {index : ℕ} {motion : Motion} {candidate velocity : Vec}

theorem isFinite_haltAlong (road : Road) (axis : Axis) (index : ℕ) (velocity : Vec)
    (hcandidate : candidate.isFinite = true) :
    (haltAlong road axis index candidate velocity).position.isFinite = true := by
  have hfinite := isFinite_component hcandidate
  rw [Vec.isFinite_iff, Axis.forall_iff axis, haltAlong, Axis.component_withComponent,
    Axis.perpendicular_component_withComponent]
  exact ⟨(road.within_clampTo axis (hfinite axis)).1.1, hfinite axis.perpendicular⟩

theorem isFinite_enter (road : Road) (index : ℕ) (velocity : Vec)
    (hcandidate : candidate.isFinite = true) :
    (enter road index candidate velocity).position.isFinite = true := by
  rw [Vec.isFinite_iff]
  intro axis
  rw [enter, Road.component_clamp]
  exact (road.within_clampTo axis (isFinite_component hcandidate axis)).1.1

private theorem isFinite_drive {map : StreetMap} (motion : Motion)
    (hroad : map.road? motion.road = some road) (hcandidate : candidate.isFinite = true) :
    (drive map motion candidate).position.isFinite = true := by
  obtain ⟨last, hlast, -⟩ :=
    StreetMap.exists_road_anchor hroad (isFinite_component hcandidate road.axis)
  rw [drive_eq_haltWithin hlast, haltWithin_eq_haltAlong]
  exact isFinite_haltAlong _ _ _ _ hcandidate

private theorem isFinite_turn (map : StreetMap) (road : Road) (heading : Heading)
    (motion : Motion) (hcandidate : candidate.isFinite = true) :
    (turn map road heading motion candidate).position.isFinite = true := by
  rcases turn_cases map road heading motion candidate with
    ⟨other, next, -, -, henter⟩ | ⟨-, hhold⟩
  · rw [henter]
    exact isFinite_enter _ _ _ hcandidate
  · rw [hhold, hold_eq_haltAlong]
    exact isFinite_haltAlong _ _ _ _ hcandidate

/-- Whatever the state, a step that is not refused has a finite outcome. -/
theorem isFinite_of_advance {map : StreetMap} {heading : Heading} {time : Duration} {after : Motion}
    (h : motion.advance map heading velocity time = .ok after) :
    after.position.isFinite = true ∧ after.velocity.isFinite = true := by
  have hvelocities := velocity_of_advance h
  cases hroad : map.road? motion.road with
  | none => simp [advance, hroad] at h
  | some road =>
      rw [advance_eq hroad] at h
      by_cases hcandidate : (motion.candidate velocity time).isFinite = true
      · rw [if_pos hcandidate] at h
        refine ⟨?_, ?_⟩
        · rw [← Except.ok.inj h]
          split_ifs
          · exact isFinite_turn map road heading _ hcandidate
          · exact isFinite_drive (motion.withVelocity velocity) hroad hcandidate
        · rcases hvelocities with hkept | hstopped
          · rw [hkept, Vec.isFinite_iff]
            intro axis
            have hsum := isFinite_component hcandidate axis
            rw [component_candidate] at hsum
            exact (isFinite_of_mul (isFinite_of_add hsum).2).1
          · rw [hstopped]
            decide +kernel
      · rw [if_neg hcandidate] at h
        cases h

end Motion

namespace Symmetry

variable {σ : Symmetry}

/-- `y` stands for the image of `x` along the axis: it is finite when `x` is, and
then has the image of its value. -/
structure Carries (σ : Symmetry) (axis : Axis) (x y : Float) : Prop where
  isFinite_eq : y.isFinite = x.isFinite
  value_eq : x.isFinite = true → value y = σ.signed axis (value x)

section Numbers

variable {axis : Axis} {x y u v : Float}

theorem carries_of_not_isFinite (hx : ¬ x.isFinite = true) (hy : ¬ y.isFinite = true) :
    σ.Carries axis x y :=
  ⟨(Bool.eq_false_iff.mpr hy).trans (Bool.eq_false_iff.mpr hx).symm, fun h => absurd h hx⟩

/-- Rounding commutes with the symmetries. -/
theorem carries_of_roundsTo {q : ℚ} (hx : RoundsTo x q) (hy : RoundsTo y (σ.signed axis q)) :
    σ.Carries axis x y := by
  have hfinite : y.isFinite = x.isFinite := by
    rw [Bool.eq_iff_iff, hy.isFinite_iff, hx.isFinite_iff, nearest_signed, abs_signed]
  refine ⟨hfinite, fun h => ?_⟩
  rw [hx.value_eq h, hy.value_eq (hfinite.trans h), nearest_signed]

theorem Carries.add (hx : σ.Carries axis x u) (hy : σ.Carries axis y v) :
    σ.Carries axis (x + y) (u + v) := by
  by_cases hfinite : x.isFinite = true ∧ y.isFinite = true
  · have hsum := add_roundsTo (hx.isFinite_eq.trans hfinite.1) (hy.isFinite_eq.trans hfinite.2)
    rw [hx.value_eq hfinite.1, hy.value_eq hfinite.2, ← signed_add] at hsum
    exact carries_of_roundsTo (add_roundsTo hfinite.1 hfinite.2) hsum
  · have hfinite' : ¬ (u.isFinite = true ∧ v.isFinite = true) := by
      rwa [hx.isFinite_eq, hy.isFinite_eq]
    exact carries_of_not_isFinite (fun h => hfinite (isFinite_of_add h))
      (fun h => hfinite' (isFinite_of_add h))

theorem Carries.mul (hx : σ.Carries axis x u) (t : Float) : σ.Carries axis (x * t) (u * t) := by
  by_cases hfinite : x.isFinite = true ∧ t.isFinite = true
  · have hproduct := mul_roundsTo (hx.isFinite_eq.trans hfinite.1) hfinite.2
    rw [hx.value_eq hfinite.1, ← signed_mul] at hproduct
    exact carries_of_roundsTo (mul_roundsTo hfinite.1 hfinite.2) hproduct
  · have hfinite' : ¬ (u.isFinite = true ∧ t.isFinite = true) := by rwa [hx.isFinite_eq]
    exact carries_of_not_isFinite (fun h => hfinite (isFinite_of_mul h))
      (fun h => hfinite' (isFinite_of_mul h))

end Numbers

def CarriesVec (σ : Symmetry) (u v : Vec) : Prop :=
  ∀ axis, σ.Carries axis (axis.component u) ((σ.axis axis).component v)

section Vectors

variable {u v w z : Vec} {axis : Axis} {x y : Float}

theorem component_vec (σ : Symmetry) (axis : Axis) (u : Vec) :
    (σ.axis axis).component (σ.vec u) =
      if σ.flips axis then -axis.component u else axis.component u := by
  rcases σ with _ | (_ | _) <;> cases axis <;> rfl

theorem carriesVec_vec (σ : Symmetry) (u : Vec) : σ.CarriesVec u (σ.vec u) := by
  intro axis
  rw [component_vec]
  cases hflips : σ.flips axis with
  | true => exact ⟨isFinite_neg _, fun _ => by rw [if_pos rfl, value_neg, signed, if_pos hflips]⟩
  | false =>
      refine ⟨rfl, fun _ => ?_⟩
      rw [signed, hflips]
      rfl

theorem carriesVec_zero (σ : Symmetry) : σ.CarriesVec .zero .zero := by
  have hzero (axis : Axis) : axis.component .zero = 0.0 := by cases axis <;> rfl
  intro axis
  rw [hzero, hzero]
  refine ⟨rfl, fun _ => ?_⟩
  rw [zero_exact.2, signed, neg_zero, ite_self]

theorem CarriesVec.isFinite_eq (h : σ.CarriesVec u v) : v.isFinite = u.isFinite := by
  rw [Bool.eq_iff_iff, Vec.isFinite_iff, Vec.isFinite_iff, ← σ.forall_axis]
  exact forall_congr' fun axis => by rw [(h axis).isFinite_eq]

/-- Among finite vectors images are known by their numbers. -/
theorem CarriesVec.beq (h : σ.CarriesVec u v) (hu : u.isFinite = true) : (v == σ.vec u) = true := by
  have hfinite := u.isFinite_iff.mp hu
  rw [Vec.beq_iff, ← σ.forall_axis]
  intro axis
  have himage := carriesVec_vec σ u axis
  rw [beq_iff ((h axis).isFinite_eq.trans (hfinite axis))
    (himage.isFinite_eq.trans (hfinite axis)), (h axis).value_eq (hfinite axis),
    himage.value_eq (hfinite axis)]

theorem CarriesVec.withComponent (h : σ.CarriesVec u v) (hx : σ.Carries axis x y) :
    σ.CarriesVec (axis.withComponent u x) ((σ.axis axis).withComponent v y) := by
  rw [CarriesVec, Axis.forall_iff axis]
  constructor
  · rwa [Axis.component_withComponent, Axis.component_withComponent]
  · rw [axis_perpendicular, Axis.perpendicular_component_withComponent,
      Axis.perpendicular_component_withComponent, ← axis_perpendicular]
    exact h axis.perpendicular

theorem CarriesVec.candidate {motion image : Motion} {velocity velocity' : Vec}
    (hposition : σ.CarriesVec motion.position image.position)
    (hvelocity : σ.CarriesVec velocity velocity') (time : Duration) :
    σ.CarriesVec (motion.candidate velocity time) (image.candidate velocity' time) := by
  intro axis
  rw [Motion.component_candidate, Motion.component_candidate]
  exact (hposition axis).add ((hvelocity axis).mul time.inSeconds)

end Vectors

/-! ## Searches -/

/-- The second map has the images of the roads of the first one, in their order. -/
structure Redraws (σ : Symmetry) (map image : StreetMap) : Prop where
  roads_eq : image.roads = map.roads.map σ.road
  fits : ∀ road ∈ map.roads, σ.Fits road

section Searches

variable {map image : StreetMap} {candidate candidate' : Vec} {index : ℕ} {road next : Road}
  {heading : Heading} {x y : Float}

theorem Redraws.road?_eq (h : σ.Redraws map image) (index : ℕ) :
    image.road? index = (map.road? index).map σ.road := by
  rw [StreetMap.road?, h.roads_eq, List.getElem?_map, ← StreetMap.road?]

theorem Redraws.road?_eq_some (h : σ.Redraws map image) (hroad : map.road? index = some road) :
    image.road? index = some (σ.road road) := by
  rw [h.road?_eq, hroad, Option.map_some]

theorem Redraws.fits_of_road? (h : σ.Redraws map image) (hroad : map.road? index = some road) :
    σ.Fits road :=
  h.fits road (List.mem_of_getElem? hroad)

theorem Redraws.indicesOf_eq (h : σ.Redraws map image) {p q : Road → Prop}
    (hp : ∀ road, σ.Fits road → (q (σ.road road) ↔ p road)) :
    image.indicesOf q = map.indicesOf p := by
  ext index
  rw [StreetMap.indicesOf, Set.mem_ofPred_eq, h.road?_eq, StreetMap.indicesOf, Set.mem_ofPred_eq]
  constructor
  · rintro ⟨_, hroad', hq⟩
    obtain ⟨road, hroad, rfl⟩ := Option.map_eq_some_iff.mp hroad'
    exact ⟨road, hroad, (hp road (h.fits_of_road? hroad)).mp hq⟩
  · rintro ⟨road, hroad, hpRoad⟩
    exact ⟨σ.road road, Option.map_eq_some_iff.mpr ⟨road, hroad, rfl⟩,
      (hp road (h.fits_of_road? hroad)).mpr hpRoad⟩

/-- A dog leaves the image of a road for the same road. -/
theorem Redraws.continuation?_eq (h : σ.Redraws map image)
    (hcandidate : candidate.isFinite = true) (hcarries : σ.CarriesVec candidate candidate')
    (index : ℕ) : image.continuation? candidate' index = map.continuation? candidate index := by
  cases hroad : map.road? index with
  | none =>
      have hroad' := h.road?_eq index
      rw [hroad, Option.map_none] at hroad'
      rw [StreetMap.continuation?, hroad', StreetMap.continuation?, hroad]
  | some road =>
      have hroad' := h.road?_eq_some hroad
      have hfits := h.fits_of_road? hroad
      have hfinite := candidate.isFinite_iff.mp hcandidate road.axis
      have hfinite' := (hcarries road.axis).isFinite_eq.trans hfinite
      ext next
      rw [StreetMap.continuation?_eq_some_iff hroad' hfinite',
        StreetMap.continuation?_eq_some_iff hroad hfinite, ← σ.exists_roadEnd road.axis]
      refine exists_congr fun e => ?_
      rw [axis_road, (hcarries road.axis).value_eq hfinite, passed_road hfits,
        h.indicesOf_eq fun next hnext => prolongedBy_road hfits hnext]

theorem Redraws.follow_eq (h : σ.Redraws map image) (hcandidate : candidate.isFinite = true)
    (hcarries : σ.CarriesVec candidate candidate') (limit index : ℕ) :
    image.follow candidate' limit index = map.follow candidate limit index := by
  induction limit generalizing index with
  | zero => rfl
  | succ limit ih =>
      rw [StreetMap.follow, StreetMap.follow, h.continuation?_eq hcandidate hcarries]
      cases map.continuation? candidate index with
      | none => rfl
      | some next => exact ih next

theorem Redraws.anchor_eq (h : σ.Redraws map image) (hcandidate : candidate.isFinite = true)
    (hcarries : σ.CarriesVec candidate candidate') (index : ℕ) :
    image.anchor candidate' index = map.anchor candidate index := by
  rw [StreetMap.anchor, StreetMap.anchor, h.roads_eq, List.length_map,
    h.follow_eq hcandidate hcarries]

theorem crossedNear_road (hroad : σ.Fits road) (hnext : σ.Fits next) (hx : x.isFinite = true)
    (hcarries : σ.Carries road.axis x y) :
    (σ.road road).CrossedNear (value y) (σ.road next) ↔ road.CrossedNear (value x) next := by
  have hy := hcarries.isFinite_eq.trans hx
  rw [Road.crossedNear_iff hx, Road.crossedNear_iff hy, contact_road hroad hnext]
  refine and_congr_right fun hcontact => inReach_road hnext hx hy ?_
  rw [← Axis.eq_perpendicular_of_ne (Road.contact_eq_crossed_iff.mp hcontact).1]
  exact hcarries.value_eq hx

theorem Redraws.crossingAhead?_eq (h : σ.Redraws map image)
    (hroad : map.road? index = some road) (hheading : heading.axis? = some road.axis.perpendicular)
    (hcandidate : candidate.isFinite = true) (hcarries : σ.CarriesVec candidate candidate') :
    image.crossingAhead? index (σ.road road) (σ.heading heading) candidate' =
      map.crossingAhead? index road heading candidate := by
  have hfits := h.fits_of_road? hroad
  have hroad' := h.road?_eq_some hroad
  ext other
  rw [StreetMap.crossingAhead?_eq_some_iff hroad' (hcarries.isFinite_eq.trans hcandidate),
    StreetMap.crossingAhead?_eq_some_iff hroad hcandidate, StreetMap.crossingsAhead,
    StreetMap.crossingsAhead, h.indicesOf_eq fun next hnext => ?_]
  rw [axis_road, crossedNear_road hfits hnext (candidate.isFinite_iff.mp hcandidate road.axis)
    (hcarries road.axis)]
  refine and_congr_right fun hnear => ?_
  have hacross := Axis.eq_perpendicular_of_ne hnear.across
  exact back_road_eq_iff hfits hnext hacross (hacross ▸ hheading)

theorem Redraws.crossingAt?_eq (h : σ.Redraws map image) (hroad : map.road? index = some road)
    (hcandidate : candidate.isFinite = true) (hcarries : σ.CarriesVec candidate candidate') :
    image.crossingAt? index (σ.road road) candidate' = map.crossingAt? index road candidate := by
  have hfits := h.fits_of_road? hroad
  have hfinite := candidate.isFinite_iff.mp hcandidate
  have hroad' := h.road?_eq_some hroad
  ext other
  rw [StreetMap.crossingAt?_eq_some_iff hroad' (hcarries.isFinite_eq.trans hcandidate),
    StreetMap.crossingAt?_eq_some_iff hroad hcandidate, StreetMap.crossingsOver,
    StreetMap.crossingsOver, h.indicesOf_eq fun next hnext => ?_]
  rw [axis_road, crossedNear_road hfits hnext (hfinite road.axis) (hcarries road.axis)]
  refine and_congr_right fun hnear => ?_
  rw [← Road.extends_iff, ← Road.extends_iff, ← axis_perpendicular,
    (hcarries road.axis.perpendicular).value_eq (hfinite road.axis.perpendicular),
    ← Axis.eq_perpendicular_of_ne hnear.across, extends_road hnext]

end Searches

/-- A clamp of negated numbers is the negated clamp. -/
private theorem clamp_neg {below above x : ℚ} (h : -below ≤ above) :
    max (-above) (min below (-x)) = -max (-below) (min above x) := by
  rw [max_min_distrib_left (-below), max_eq_right h, ← max_neg_neg above, ← min_neg_neg (-below),
    neg_neg]

/-- Brought between the edges, images stay images. -/
theorem Carries.limit {road : Road} {axis : Axis} {x y : Float} (hfits : σ.Fits road)
    (hx : x.isFinite = true) (h : σ.Carries axis x y) :
    σ.Carries axis (road.limit axis x) ((σ.road road).limit (σ.axis axis) y) := by
  obtain ⟨hwithin, hvalue⟩ := road.within_clampTo axis hx
  obtain ⟨hwithin', hvalue'⟩ := (σ.road road).within_clampTo (σ.axis axis) (h.isFinite_eq.trans hx)
  refine ⟨hwithin'.1.trans hwithin.1.symm, fun _ => ?_⟩
  have hbound := bound_road hfits axis
  have hle := lowEdge_le_highEdge (road.extent_fst_le_snd axis)
  rw [Road.limit, Road.limit, hvalue, hvalue', h.value_eq hx, Road.lowEdge_extent,
    Road.lowEdge_extent, Road.highEdge_extent, Road.highEdge_extent]
  rw [Road.lowEdge_extent, Road.highEdge_extent] at hle
  unfold roadEnd at hbound
  unfold signed
  split_ifs at * with hflips
  · rw [← clamp_neg hle, ← hbound .low, ← hbound .high]
    rfl
  · rw [← hbound .low, ← hbound .high]

structure Images (σ : Symmetry) (motion image : Motion) : Prop where
  road_eq : image.road = motion.road
  position : σ.CarriesVec motion.position image.position
  velocity : σ.CarriesVec motion.velocity image.velocity

section Motions

variable {map image : StreetMap} {motion motion' : Motion} {candidate candidate' : Vec}
  {velocity velocity' : Vec} {index : ℕ} {road : Road} {axis : Axis} {heading : Heading}

theorem images_motion (σ : Symmetry) (motion : Motion) : σ.Images motion (σ.motion motion) :=
  ⟨rfl, carriesVec_vec σ _, carriesVec_vec σ _⟩

theorem within_carried (hfits : σ.Fits road) (hcandidate : candidate.isFinite = true)
    (hcarries : σ.CarriesVec candidate candidate') (axis : Axis) :
    (σ.road road).Within (σ.axis axis) ((σ.axis axis).component candidate') ↔
      road.Within axis (axis.component candidate) := by
  have hfinite := candidate.isFinite_iff.mp hcandidate axis
  exact within_road hfits hfinite ((hcarries axis).isFinite_eq.trans hfinite)
    ((hcarries axis).value_eq hfinite)

/-- A dog is held back where its image is. -/
theorem limit_beq (hfits : σ.Fits road) (hcandidate : candidate.isFinite = true)
    (hcarries : σ.CarriesVec candidate candidate') (axis : Axis) :
    ((σ.road road).limit (σ.axis axis) ((σ.axis axis).component candidate') ==
        (σ.axis axis).component candidate') =
      (road.limit axis (axis.component candidate) == axis.component candidate) := by
  rw [Bool.eq_iff_iff, Road.limit, Road.limit, Road.clampTo_extent_beq_iff,
    Road.clampTo_extent_beq_iff]
  exact within_carried hfits hcandidate hcarries axis

theorem images_haltAlong (hfits : σ.Fits road) (hcandidate : candidate.isFinite = true)
    (hcarries : σ.CarriesVec candidate candidate') (hvelocity : σ.CarriesVec velocity velocity')
    (axis : Axis) (index : ℕ) :
    σ.Images (Motion.haltAlong road axis index candidate velocity)
      (Motion.haltAlong (σ.road road) (σ.axis axis) index candidate' velocity') := by
  refine ⟨rfl, ?_, ?_⟩
  · exact hcarries.withComponent
      ((hcarries axis).limit hfits (candidate.isFinite_iff.mp hcandidate axis))
  · rw [Motion.haltAlong, Motion.haltAlong, limit_beq hfits hcandidate hcarries]
    split_ifs
    · exact hvelocity
    · exact carriesVec_zero σ

theorem images_enter (hfits : σ.Fits road) (hcandidate : candidate.isFinite = true)
    (hcarries : σ.CarriesVec candidate candidate') (hvelocity : σ.CarriesVec velocity velocity')
    (index : ℕ) :
    σ.Images (Motion.enter road index candidate velocity)
      (Motion.enter (σ.road road) index candidate' velocity') := by
  have hmoves : (σ.road road).moves candidate' = road.moves candidate := by
    have hcontains : (σ.road road).contains candidate' = road.contains candidate := by
      rw [Bool.eq_iff_iff, Road.contains_iff, Road.contains_iff, ← σ.forall_axis]
      exact forall_congr' fun axis => within_carried hfits hcandidate hcarries axis
    exact Bool.not_inj hcontains
  refine ⟨rfl, fun axis => ?_, ?_⟩
  · rw [Motion.enter, Motion.enter, Road.component_clamp, Road.component_clamp]
    exact (hcarries axis).limit hfits (candidate.isFinite_iff.mp hcandidate axis)
  · rw [Motion.enter, Motion.enter, hmoves]
    split_ifs
    · exact carriesVec_zero σ
    · exact hvelocity

theorem images_drive (h : σ.Redraws map image) (hroad : map.road? motion.road = some road)
    (hcandidate : candidate.isFinite = true) (hcarries : σ.CarriesVec candidate candidate')
    (hmotion : σ.Images motion motion') :
    σ.Images (Motion.drive map motion candidate) (Motion.drive image motion' candidate') := by
  have hanchor := h.anchor_eq hcandidate hcarries motion.road
  obtain ⟨last, hlast, -⟩ :=
    StreetMap.exists_road_anchor hroad (candidate.isFinite_iff.mp hcandidate road.axis)
  have hlast' : image.road? (image.anchor candidate' motion'.road) = some (σ.road last) := by
    rw [hmotion.road_eq, hanchor]
    exact h.road?_eq_some hlast
  rw [Motion.drive_eq_haltWithin hlast, Motion.drive_eq_haltWithin hlast',
    Motion.haltWithin_eq_haltAlong, Motion.haltWithin_eq_haltAlong, axis_road, hmotion.road_eq,
    hanchor]
  exact images_haltAlong (h.fits_of_road? hlast) hcandidate hcarries hmotion.velocity last.axis _

theorem images_turn (h : σ.Redraws map image) (hroad : map.road? motion.road = some road)
    (hheading : heading.axis? = some road.axis.perpendicular)
    (hcandidate : candidate.isFinite = true) (hcarries : σ.CarriesVec candidate candidate')
    (hmotion : σ.Images motion motion') :
    σ.Images (Motion.turn map road heading motion candidate)
      (Motion.turn image (σ.road road) (σ.heading heading) motion' candidate') := by
  have hhold : σ.Images (Motion.hold road motion candidate)
      (Motion.hold (σ.road road) motion' candidate') := by
    rw [Motion.hold_eq_haltAlong, Motion.hold_eq_haltAlong, axis_road, ← axis_perpendicular,
      hmotion.road_eq]
    exact images_haltAlong (h.fits_of_road? hroad) hcandidate hcarries hmotion.velocity _ _
  unfold Motion.turn
  dsimp only
  rw [hmotion.road_eq, h.crossingAhead?_eq hroad hheading hcandidate hcarries,
    h.crossingAt?_eq hroad hcandidate hcarries]
  cases (map.crossingAhead? motion.road road heading candidate).or
      (map.crossingAt? motion.road road candidate) with
  | none => exact hhold
  | some other =>
      dsimp only
      rw [h.road?_eq other]
      cases hnext : map.road? other with
      | none => exact hhold
      | some next =>
          exact images_enter (h.fits_of_road? hnext) hcandidate hcarries hmotion.velocity other

/-- The outcome of a step and of its image: images of one another, or the same
refusal. -/
inductive Outcome (σ : Symmetry) : Except MotionError Motion → Except MotionError Motion → Prop
  | moved {after after' : Motion} (h : σ.Images after after') : Outcome σ (.ok after) (.ok after')
  | refused (error : MotionError) : Outcome σ (.error error) (.error error)

theorem outcome_advance (h : σ.Redraws map image) (hmotion : σ.Images motion motion')
    (hvelocity : σ.CarriesVec velocity velocity') (heading : Heading) (time : Duration) :
    σ.Outcome (motion.advance map heading velocity time)
      (motion'.advance image (σ.heading heading) velocity' time) := by
  have hcarries := hmotion.position.candidate hvelocity time
  have hroad' : image.road? motion'.road = (map.road? motion.road).map σ.road := by
    rw [hmotion.road_eq, h.road?_eq]
  cases hroad : map.road? motion.road with
  | none =>
      rw [hroad, Option.map_none] at hroad'
      rw [Motion.advance_eq_unknownRoad hroad, Motion.advance_eq_unknownRoad hroad',
        hmotion.road_eq]
      exact .refused _
  | some road =>
      rw [hroad, Option.map_some] at hroad'
      have hturns : (σ.heading heading).axis? = some (σ.road road).axis.perpendicular ↔
          heading.axis? = some road.axis.perpendicular := by
        rw [axis?_heading, axis_road, ← axis_perpendicular, ← Option.map_some]
        exact (Option.map_injective σ.axis_injective).eq_iff
      have hwith : σ.Images (motion.withVelocity velocity) (motion'.withVelocity velocity') :=
        ⟨hmotion.road_eq, hmotion.position, hvelocity⟩
      rw [Motion.advance_eq hroad, Motion.advance_eq hroad', hcarries.isFinite_eq]
      simp only [hturns]
      split_ifs with hcandidate hturn
      · exact .moved (images_turn h hroad hturn hcandidate hcarries hwith)
      · exact .moved (images_drive h hroad hcandidate hcarries hwith)
      · exact .refused _

end Motions

end Symmetry

def StreetMap.mirroredCrossroads : StreetMap where
  id := "mirrored"
  name := "Mirrored crossroads"
  roads := [.horizontal ⟨0, 0⟩ 10, .vertical ⟨4, 5⟩ (-5)]
  buildings := []
  offices := []
  dogSpeed := none
  roads_ne_nil := List.cons_ne_nil _ _
  offices_nodup := List.nodup_nil
  dogSpeed_usable := StreetMap.usable_of_mem_none

namespace Motion

variable {σ : Symmetry} {map image : StreetMap}

/-- On the image of a map, the image of a step is the step of the image: it comes
to the same road, and to the images of the position and the velocity, or it is
refused for the same reason. -/
theorem advance_symmetric (hroads : image.roads = map.roads.map σ.road)
    (hfits : ∀ road ∈ map.roads, σ.Fits road) (heading : Heading) (velocity : Vec)
    (time : Duration) (motion : Motion) :
    (∀ after, motion.advance map heading velocity time = .ok after →
      ∃ after', (σ.motion motion).advance image (σ.heading heading) (σ.vec velocity) time =
          .ok after' ∧
        after'.road = after.road ∧ (after'.position == σ.vec after.position) = true ∧
        (after'.velocity == σ.vec after.velocity) = true) ∧
    (∀ error, motion.advance map heading velocity time = .error error →
      (σ.motion motion).advance image (σ.heading heading) (σ.vec velocity) time =
        .error error) := by
  have houtcome := Symmetry.outcome_advance ⟨hroads, hfits⟩ (σ.images_motion motion)
    (σ.carriesVec_vec velocity) heading time
  constructor
  · intro after hafter
    obtain ⟨hposition, hvelocity⟩ := isFinite_of_advance hafter
    rw [hafter] at houtcome
    generalize (σ.motion motion).advance image (σ.heading heading) (σ.vec velocity) time = outcome
      at houtcome ⊢
    cases houtcome with
    | moved h => exact ⟨_, rfl, h.road_eq, h.position.beq hposition, h.velocity.beq hvelocity⟩
  · intro error herror
    rw [herror] at houtcome
    generalize (σ.motion motion).advance image (σ.heading heading) (σ.vec velocity) time = outcome
      at houtcome ⊢
    cases houtcome with
    | refused error => rfl

/-- A dog that turns north onto a crossing road, and its image that turns south. -/
theorem advance_symmetric_crossroads :
    ∃ after, (Motion.mk 0 ⟨4.25, 0.25⟩ .zero).advance .crossroads .north
        (Heading.north.velocity 3.0) ⟨1000000000⟩ = .ok after ∧ after.road = 1 ∧
      ∃ after', ((Symmetry.mirror .vertical).motion ⟨0, ⟨4.25, 0.25⟩, .zero⟩).advance
          .mirroredCrossroads .south ((Symmetry.mirror .vertical).vec (Heading.north.velocity 3.0))
          ⟨1000000000⟩ = .ok after' ∧
        after'.road = 1 ∧
        (after'.position == (Symmetry.mirror .vertical).vec after.position) = true ∧
        (after'.velocity == (Symmetry.mirror .vertical).vec after.velocity) = true := by
  have hstep : (Motion.mk 0 ⟨4.25, 0.25⟩ .zero).advance .crossroads .north
      (Heading.north.velocity 3.0) ⟨1000000000⟩ =
        .ok ⟨1, ⟨4.25, -2.75⟩, Heading.north.velocity 3.0⟩ := by decide +kernel
  have hroads : StreetMap.mirroredCrossroads.roads =
      StreetMap.crossroads.roads.map (Symmetry.mirror .vertical).road := by decide +kernel
  exact ⟨_, hstep, rfl, (advance_symmetric hroads (by decide +kernel) .north _ _ _).1 _ hstep⟩

end Motion

end StreetDogs
