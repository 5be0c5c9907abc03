import StreetDogs.Proofs.Motion.Scan

/-!
# Junctions are the contacts of roads

The classification of two roads says how their segments touch: roads along
different axes cross when the segments have a common point, and roads along the
same axis are adjacent when an end point is common to both.  The junctions hold
exactly these contacts, and every way to read them agrees with it.
-/

namespace StreetDogs

def GridPoint.point (p : GridPoint) : ℝ × ℝ := (p.x.toInt, p.y.toInt)

namespace Road

def points (road : Road) : Set (ℝ × ℝ) := segment ℝ road.start.point road.finish.point

def ends (road : Road) : Set GridPoint := {road.start, road.finish}

variable {a b : Road}

private theorem segment_toInt (c d : Coord) :
    segment ℝ (c.toInt : ℝ) d.toInt = Set.Icc ((min c d).toInt : ℝ) (max c d).toInt := by
  rw [segment_eq_uIcc, Set.uIcc, Coord.toInt_min, Coord.toInt_max, Int.cast_min, Int.cast_max]

/-- A road covers its centre line from end to end. -/
theorem points_eq_centreLine (road : Road) : road.points = road.centreLine := by
  obtain ⟨axis, start, stop⟩ := road
  ext ⟨x, y⟩
  cases axis with
  | horizontal =>
      have hpoints : points ⟨.horizontal, start, stop⟩ =
          (fun x : ℝ => (x, (start.y.toInt : ℝ))) '' segment ℝ (start.x.toInt : ℝ) stop.toInt :=
        (Prod.image_mk_segment_left _ _ _).symm
      rw [hpoints, segment_toInt]
      constructor
      · rintro ⟨x, hx, hpoint⟩
        obtain ⟨rfl, rfl⟩ := Prod.mk.inj hpoint
        exact ⟨hx, rfl⟩
      · rintro ⟨hx, hy⟩
        exact ⟨x, hx, Prod.ext rfl hy.symm⟩
  | vertical =>
      have hpoints : points ⟨.vertical, start, stop⟩ =
          (fun y : ℝ => ((start.x.toInt : ℝ), y)) '' segment ℝ (start.y.toInt : ℝ) stop.toInt :=
        (Prod.image_mk_segment_right _ _ _).symm
      rw [hpoints, segment_toInt]
      constructor
      · rintro ⟨y, hy, hpoint⟩
        obtain ⟨rfl, rfl⟩ := Prod.mk.inj hpoint
        exact ⟨hy, rfl⟩
      · rintro ⟨hy, hx⟩
        exact ⟨y, hy, Prod.ext hx.symm rfl⟩

theorem sharesEnd_iff : a.sharesEnd b = true ↔ (a.ends ∩ b.ends).Nonempty := by
  rw [sharesEnd, ends, ends]
  simp only [Bool.or_eq_true, beq_iff_eq]
  constructor
  · rintro (((h | h) | h) | h)
    · exact ⟨a.start, Or.inl rfl, Or.inl h⟩
    · exact ⟨a.start, Or.inl rfl, Or.inr h⟩
    · exact ⟨a.finish, Or.inr rfl, Or.inl h⟩
    · exact ⟨a.finish, Or.inr rfl, Or.inr h⟩
  · rintro ⟨p, ha | ha, hb | hb⟩
    · exact Or.inl (Or.inl (Or.inl (ha.symm.trans hb)))
    · exact Or.inl (Or.inl (Or.inr (ha.symm.trans hb)))
    · exact Or.inl (Or.inr (ha.symm.trans hb))
    · exact Or.inr (ha.symm.trans hb)

/-- What the contact of two roads says about their points. -/
structure ContactIsGeometric (a b : Road) : Prop where
  comm : a.contact b = b.contact a
  crossed_iff : a.contact b = some .crossed ↔ a.axis ≠ b.axis ∧ (a.points ∩ b.points).Nonempty
  adjacent_iff : a.contact b = some .adjacent ↔ a.axis = b.axis ∧ (a.ends ∩ b.ends).Nonempty
  collinear : a.contact b = some .adjacent → a.SameLine b

theorem contactIsGeometric (a b : Road) : a.ContactIsGeometric b where
  comm := a.contact_comm b
  crossed_iff := by
    rw [points_eq_centreLine, points_eq_centreLine]
    exact contact_eq_crossed_iff_meets
  adjacent_iff := by rw [contact_eq_adjacent_iff, sharesEnd_iff]
  collinear := axis_fixed_eq_of_adjacent

end Road

/-! ## Junctions -/

namespace Junctions

/-- The contact of two roads of a list; roads that are not in the list have none. -/
def contactIn (roads : List Road) (index other : ℕ) : Option Contact :=
  roads[index]?.bind fun road => roads[other]?.bind road.contact

/-- The junctions are those of the roads: a row for every road, in ascending order,
with exactly the contacts to other roads, and look-ups that agree with it. -/
structure Represents (junctions : Junctions) (roads : List Road) : Prop where
  size : junctions.size = roads.length
  ascending (index : ℕ) : (junctions.neighbours index).Pairwise (·.road < ·.road)
  mem_iff (index other : ℕ) (contact : Contact) :
    ⟨other, contact⟩ ∈ junctions.neighbours index ↔
      other ≠ index ∧ contactIn roads index other = some contact
  contact?_comm (index other : ℕ) : junctions.contact? index other = junctions.contact? other index
  contact?_eq (index other : ℕ) : junctions.contact? index other =
    if other = index then none else contactIn roads index other
  crossings_eq (index : ℕ) : junctions.crossings index = (List.range roads.length).filter
    fun other => other ≠ index ∧ contactIn roads index other = some .crossed
  adjacent_eq (index : ℕ) : junctions.adjacent index = (List.range roads.length).filter
    fun other => other ≠ index ∧ contactIn roads index other = some .adjacent

variable {roads : List Road} {index other : ℕ} {contact : Contact}

theorem contactIn_eq_some_iff : contactIn roads index other = some contact ↔
    ∃ road next, roads[index]? = some road ∧ roads[other]? = some next ∧
      road.contact next = some contact := by
  simp only [contactIn, Option.bind_eq_some_iff]
  constructor
  · rintro ⟨road, hroad, next, hnext, hcontact⟩
    exact ⟨road, next, hroad, hnext, hcontact⟩
  · rintro ⟨road, next, hroad, hnext, hcontact⟩
    exact ⟨road, hroad, next, hnext, hcontact⟩

theorem contactIn_comm (roads : List Road) (index other : ℕ) :
    contactIn roads index other = contactIn roads other index := by
  ext contact
  rw [contactIn_eq_some_iff, contactIn_eq_some_iff]
  constructor
  · rintro ⟨road, next, hroad, hnext, hcontact⟩
    exact ⟨next, road, hnext, hroad, next.contact_comm road ▸ hcontact⟩
  · rintro ⟨next, road, hnext, hroad, hcontact⟩
    exact ⟨road, next, hroad, hnext, road.contact_comm next ▸ hcontact⟩

theorem mem_neighbours_iff_contactIn : ⟨other, contact⟩ ∈ (ofRoads roads).neighbours index ↔
    other ≠ index ∧ contactIn roads index other = some contact := by
  rw [mem_neighbours_ofRoads_iff, contactIn_eq_some_iff]

/-- A look-up finds the contact with another road; there is no more than one. -/
theorem contact?_ofRoads (roads : List Road) (index other : ℕ) :
    (ofRoads roads).contact? index other =
      if other = index then none else contactIn roads index other := by
  ext contact
  have hentry : (if other = index then none else contactIn roads index other) = some contact ↔
      ⟨other, contact⟩ ∈ (ofRoads roads).neighbours index := by
    rw [mem_neighbours_iff_contactIn]
    split_ifs with hsame
    · exact iff_of_false nofun fun h => h.1 hsame
    · exact (and_iff_right hsame).symm
  rw [hentry, contact?, Option.map_eq_some_iff]
  constructor
  · rintro ⟨⟨position, _⟩, hfound, rfl⟩
    obtain rfl : position = other := by simpa using List.find?_some hfound
    exact List.mem_of_find?_eq_some hfound
  · intro hmem
    have hsome : (((ofRoads roads).neighbours index).find? (·.road == other)).isSome = true :=
      List.find?_isSome.mpr ⟨_, hmem, beq_self_eq_true other⟩
    obtain ⟨⟨position, found⟩, hfound⟩ := Option.isSome_iff_exists.mp hsome
    obtain rfl : position = other := by simpa using List.find?_some hfound
    refine ⟨_, hfound, ?_⟩
    have hcontact := (mem_neighbours_iff_contactIn.mp (List.mem_of_find?_eq_some hfound)).2
    exact Option.some.inj (hcontact.symm.trans (mem_neighbours_iff_contactIn.mp hmem).2)

/-- The neighbours in one kind of contact, found by a scan of all indices. -/
theorem touching_ofRoads (roads : List Road) (index : ℕ) (contact : Contact) :
    (ofRoads roads).touching index contact = (List.range roads.length).filter
      fun other => other ≠ index ∧ contactIn roads index other = some contact := by
  refine (pairwise_touching roads index contact).eq_of_mem_iff
    (List.pairwise_lt_range.filter _) fun other => ?_
  rw [mem_touching_iff, mem_neighbours_iff_contactIn, List.mem_filter, decide_eq_true_iff,
    List.mem_range, iff_and_self]
  rintro ⟨-, hcontact⟩
  obtain ⟨-, next, -, hnext, -⟩ := contactIn_eq_some_iff.mp hcontact
  exact (List.getElem?_eq_some_iff.mp hnext).1

/-- For every list of roads, the junctions are exactly the contacts of different
roads, and contact is a matter of common points. -/
theorem ofRoads_represents (roads : List Road) :
    (ofRoads roads).Represents roads ∧ ∀ a b : Road, a.ContactIsGeometric b := by
  refine ⟨?_, Road.contactIsGeometric⟩
  exact {
    size := size_ofRoads roads
    ascending := pairwise_neighbours roads
    mem_iff := fun index other contact => mem_neighbours_iff_contactIn
    contact?_comm := fun index other => by
      rw [contact?_ofRoads, contact?_ofRoads, contactIn_comm]
      simp only [eq_comm]
    contact?_eq := contact?_ofRoads roads
    crossings_eq := fun index => touching_ofRoads roads index .crossed
    adjacent_eq := fun index => touching_ofRoads roads index .adjacent }

example : (ofRoads [.vertical ⟨5, -5⟩ 5, .horizontal ⟨0, 0⟩ 10, .vertical ⟨5, 5⟩ 9,
    .horizontal ⟨9, -3⟩ 0]).rows =
    [[⟨1, .crossed⟩, ⟨2, .adjacent⟩, ⟨3, .crossed⟩], [⟨0, .crossed⟩], [⟨0, .adjacent⟩],
      [⟨0, .crossed⟩]] := by
  decide

end Junctions

end StreetDogs
