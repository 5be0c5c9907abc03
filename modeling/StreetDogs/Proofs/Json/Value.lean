import StreetDogs.Proofs.Json.Decoder

/-!
# Values read back

A value that was accepted is nested no deeper than allowed, and its numbers are
in range; such a value decodes from its own tree, provided that its binary64
numbers do.  Putting the members of objects in order keeps a value acceptable,
and changes nothing the second time.
-/

namespace StreetDogs.Json

namespace Value

/-- What holds of a value may be assumed of everything the value holds. -/
@[elab_as_elim, induction_eliminator]
theorem induct {motive : Value → Prop} (null : motive null) (bool : ∀ value, motive (bool value))
    (number : ∀ n, motive (number n)) (string : ∀ content, motive (string content))
    (array : ∀ items, (∀ item ∈ items, motive item) → motive (array items))
    (object : ∀ members, (∀ member ∈ members, motive (Prod.snd member)) →
      motive (object members)) (value : Value) : motive value :=
  @Value.rec motive (fun items => ∀ item ∈ items, motive item)
    (fun members => ∀ member ∈ members, motive member.2) (fun member => motive member.2)
    null bool number string array object
    (List.forall_mem_nil _) (fun _ _ hitem hitems => List.forall_mem_cons.mpr ⟨hitem, hitems⟩)
    (List.forall_mem_nil _)
    (fun _ _ hmember hmembers => List.forall_mem_cons.mpr ⟨hmember, hmembers⟩)
    (fun _ _ hvalue => hvalue) value

/-- The value is nested at most `levels` deep, and all its numbers are in range. -/
inductive Fits : ℕ → Value → Prop where
  | null {levels : ℕ} : Fits levels null
  | bool {levels : ℕ} {value : Bool} : Fits levels (bool value)
  | number {levels : ℕ} {n : Number} (h : n.InRange) : Fits levels (number n)
  | string {levels : ℕ} {content : String} : Fits levels (string content)
  | array {levels : ℕ} {items : List Value} (h : ∀ item ∈ items, Fits levels item) :
    Fits (levels + 1) (array items)
  | object {levels : ℕ} {members : List (String × Value)}
    (h : ∀ member ∈ members, Fits levels member.2) : Fits (levels + 1) (object members)

mutual

def reals : Value → List Float
  | null | bool _ | string _ | number (.integer _) => []
  | number (.real x) => [x]
  | array items => itemReals items
  | object members => memberReals members

def itemReals : List Value → List Float
  | [] => []
  | item :: items => item.reals ++ itemReals items

def memberReals : List (String × Value) → List Float
  | [] => []
  | member :: members => memberReal member ++ memberReals members

def memberReal : String × Value → List Float
  | (_, value) => value.reals

end

theorem reals_subset_of_mem {item : Value} {items : List Value} (h : item ∈ items) :
    item.reals ⊆ (array items).reals := by
  rw [reals]
  induction items with
  | nil => exact absurd h List.not_mem_nil
  | cons head items ih =>
      rw [itemReals]
      rcases List.mem_cons.mp h with rfl | h
      · exact List.subset_append_left _ _
      · exact List.subset_append_of_subset_right _ (ih h)

theorem reals_subset_of_mem_members {member : String × Value} {members : List (String × Value)}
    (h : member ∈ members) : member.2.reals ⊆ (object members).reals := by
  rw [reals]
  induction members with
  | nil => exact absurd h List.not_mem_nil
  | cons head members ih =>
      obtain ⟨key, value⟩ := head
      rw [memberReals, memberReal]
      rcases List.mem_cons.mp h with rfl | h
      · exact List.subset_append_left _ _
      · exact List.subset_append_of_subset_right _ (ih h)

open Decoder

variable {levels : ℕ}

theorem anyItems_itemNodes {items : List Value}
    (h : ∀ item ∈ items, any levels item.node = .ok item) :
    anyItems levels (itemNodes items) = .ok items := by
  induction items with
  | nil => rfl
  | cons item items ih =>
      obtain ⟨hitem, hitems⟩ := List.forall_mem_cons.mp h
      rw [itemNodes, anyItems, hitem, ih hitems]
      rfl

theorem anyMembers_memberNodes {members : List (String × Value)}
    (h : ∀ member ∈ members, any levels member.2.node = .ok member.2) :
    anyMembers levels (memberNodes members) = .ok members := by
  induction members with
  | nil => rfl
  | cons member members ih =>
      obtain ⟨hmember, hmembers⟩ := List.forall_mem_cons.mp h
      rw [memberNodes, memberNode, anyMembers, hmember, ih hmembers]
      rfl

theorem any_ofNumber {n : Number} (hrange : n.InRange)
    (hreals : ∀ x ∈ (number n).reals, ReadsBack x) :
    any levels (.ofNumber n) = .ok (number n) := by
  obtain ⟨numeral, hnumeral, hread⟩ :
      ∃ numeral, n.numeral? = some numeral ∧ Number.ofNumeral? numeral = some n := by
    cases n with
    | integer n => exact Number.ofNumeral?_integer hrange
    | real x => exact Number.ofNumeral?_real hrange (hreals x (List.mem_singleton_self x))
  rw [Node.ofNumber, hnumeral]
  simp only [any, hread]

/-- A value that fits decodes from its tree. -/
theorem any_node {value : Value} (hfits : value.Fits levels)
    (hreals : ∀ x ∈ value.reals, ReadsBack x) : any levels value.node = .ok value := by
  induction value generalizing levels with
  | null => rfl
  | bool value => rfl
  | string content => rfl
  | number n =>
      cases hfits with
      | number hrange => exact any_ofNumber hrange hreals
  | array items ih =>
      cases hfits with
      | array hitems =>
          rw [node, any, anyItems_itemNodes fun item hitem => ih item hitem (hitems item hitem)
            fun x hx => hreals x (reals_subset_of_mem hitem hx)]
          rfl
  | object members ih =>
      cases hfits with
      | object hmembers =>
          rw [node, any, anyMembers_memberNodes fun member hmember =>
            ih member hmember (hmembers member hmember)
              fun x hx => hreals x (reals_subset_of_mem_members hmember hx)]
          rfl

mutual

/-- A value that was accepted fits. -/
theorem fits_of_any : ∀ {levels : ℕ} {node : Node} {value : Value},
    any levels node = .ok value → value.Fits levels
  | _, .null, value, h => by
      rw [any] at h
      obtain rfl := Except.ok.inj h
      exact .null
  | _, .bool b, value, h => by
      rw [any] at h
      obtain rfl := Except.ok.inj h
      exact .bool
  | _, .number numeral, value, h => by
      rw [any] at h
      cases hnumber : Number.ofNumeral? numeral with
      | none =>
          rw [hnumber] at h
          cases h
      | some n =>
          rw [hnumber] at h
          obtain rfl := Except.ok.inj h
          exact .number (Number.inRange_of_ofNumeral? hnumber)
  | _, .string text, value, h => by
      rw [any, map_eq_ok] at h
      obtain ⟨content, -, rfl⟩ := h
      exact .string
  | 0, .array items, value, h => by
      rw [any] at h
      cases h
  | levels + 1, .array items, value, h => by
      rw [any, map_eq_ok] at h
      obtain ⟨values, hitems, rfl⟩ := h
      exact .array (fits_of_anyItems hitems)
  | 0, .object members, value, h => by
      rw [any] at h
      cases h
  | levels + 1, .object members, value, h => by
      rw [any, map_eq_ok] at h
      obtain ⟨values, hmembers, rfl⟩ := h
      exact .object (fits_of_anyMembers hmembers)
  | _, .broken, value, h => by
      rw [any] at h
      cases h

theorem fits_of_anyItems : ∀ {levels : ℕ} {items : Items} {values : List Value},
    anyItems levels items = .ok values → ∀ value ∈ values, value.Fits levels
  | _, .closed, values, h => by
      obtain rfl := Except.ok.inj h
      exact List.forall_mem_nil _
  | _, .cut, values, h => by
      rw [anyItems] at h
      cases h
  | _, .cons head tail, values, h => by
      simp only [anyItems, bind_eq_ok] at h
      obtain ⟨first, hhead, more, htail, h⟩ := h
      obtain rfl := Except.ok.inj h
      exact List.forall_mem_cons.mpr ⟨fits_of_any hhead, fits_of_anyItems htail⟩

theorem fits_of_anyMembers : ∀ {levels : ℕ} {members : Members} {values : List (String × Value)},
    anyMembers levels members = .ok values → ∀ member ∈ values, member.2.Fits levels
  | _, .closed, values, h => by
      obtain rfl := Except.ok.inj h
      exact List.forall_mem_nil _
  | _, .cut, values, h => by
      rw [anyMembers] at h
      cases h
  | _, .cons key head tail, values, h => by
      simp only [anyMembers, bind_eq_ok] at h
      obtain ⟨name, -, first, hhead, more, htail, h⟩ := h
      obtain rfl := Except.ok.inj h
      exact List.forall_mem_cons.mpr ⟨fits_of_any hhead, fits_of_anyMembers htail⟩

end

mutual

/-- A tree that was accepted as a value has no break. -/
theorem isPlain_of_any : ∀ {levels : ℕ} {node : Node} {value : Value},
    any levels node = .ok value → node.IsPlain
  | _, .null, _, _ => trivial
  | _, .bool _, _, _ => trivial
  | _, .number _, _, _ => trivial
  | _, .string none, _, h => nomatch h
  | _, .string (some _), _, _ => rfl
  | 0, .array items, _, h => by
      rw [any] at h
      cases h
  | levels + 1, .array items, _, h => by
      rw [any, map_eq_ok] at h
      obtain ⟨values, hitems, -⟩ := h
      exact isPlain_of_anyItems hitems
  | 0, .object members, _, h => by
      rw [any] at h
      cases h
  | levels + 1, .object members, _, h => by
      rw [any, map_eq_ok] at h
      obtain ⟨values, hmembers, -⟩ := h
      exact isPlain_of_anyMembers hmembers
  | _, .broken, _, h => by
      rw [any] at h
      cases h

theorem isPlain_of_anyItems : ∀ {levels : ℕ} {items : Items} {values : List Value},
    anyItems levels items = .ok values → items.IsPlain
  | _, .closed, _, _ => trivial
  | _, .cut, _, h => by
      rw [anyItems] at h
      cases h
  | _, .cons head tail, _, h => by
      simp only [anyItems, bind_eq_ok] at h
      obtain ⟨_, hhead, _, htail, -⟩ := h
      exact ⟨isPlain_of_any hhead, isPlain_of_anyItems htail⟩

theorem isPlain_of_anyMembers : ∀ {levels : ℕ} {members : Members}
    {values : List (String × Value)},
    anyMembers levels members = .ok values → members.IsPlain
  | _, .closed, _, _ => trivial
  | _, .cut, _, h => by
      rw [anyMembers] at h
      cases h
  | _, .cons key value tail, _, h => by
      simp only [anyMembers, bind_eq_ok] at h
      obtain ⟨_, hkey, _, hvalue, _, htail, -⟩ := h
      obtain rfl := content_eq_ok_iff.mp hkey
      exact ⟨rfl, isPlain_of_any hvalue, isPlain_of_anyMembers htail⟩

end

/-! ## Ordered members -/

/-- The members of all objects stand in ascending order of their keys. -/
inductive Ordered : Value → Prop where
  | null : Ordered null
  | bool {value : Bool} : Ordered (bool value)
  | number {n : Number} : Ordered (number n)
  | string {content : String} : Ordered (string content)
  | array {items : List Value} (h : ∀ item ∈ items, Ordered item) : Ordered (array items)
  | object {members : List (String × Value)} (hkeys : members.Pairwise (·.1 < ·.1))
    (h : ∀ member ∈ members, Ordered member.2) : Ordered (object members)

theorem mem_insertMember {key : String} {value : Value} {members : List (String × Value)}
    {member : String × Value} (h : member ∈ insertMember key value members) :
    member = (key, value) ∨ member ∈ members := by
  induction members with
  | nil => exact Or.inl (List.mem_singleton.mp h)
  | cons head members ih =>
      obtain ⟨other, old⟩ := head
      rw [insertMember] at h
      split_ifs at h
      · exact List.mem_cons.mp h
      · exact (List.mem_cons.mp h).imp_right (List.mem_cons_of_mem _)
      · rcases List.mem_cons.mp h with rfl | h
        · exact Or.inr List.mem_cons_self
        · exact (ih h).imp_right (List.mem_cons_of_mem _)

theorem pairwise_insertMember {key : String} {value : Value} {members : List (String × Value)}
    (h : members.Pairwise (·.1 < ·.1)) : (insertMember key value members).Pairwise (·.1 < ·.1) := by
  induction members with
  | nil => exact List.pairwise_singleton _ _
  | cons head members ih =>
      obtain ⟨other, old⟩ := head
      obtain ⟨hother, hmembers⟩ := List.pairwise_cons.mp h
      rw [insertMember]
      split_ifs with hlt heq
      · refine List.pairwise_cons.mpr ⟨List.forall_mem_cons.mpr ⟨hlt, fun member hmember => ?_⟩, h⟩
        exact hlt.trans (hother member hmember)
      · subst heq
        exact List.pairwise_cons.mpr ⟨hother, hmembers⟩
      · have hgt : other < key := lt_of_le_of_ne (not_lt.mp hlt) (Ne.symm heq)
        refine List.pairwise_cons.mpr ⟨fun member hmember => ?_, ih hmembers⟩
        rcases mem_insertMember hmember with rfl | hmember
        · exact hgt
        · exact hother member hmember

/-- A member whose key comes last is put at the end. -/
theorem insertMember_eq_append {key : String} {value : Value} {members : List (String × Value)}
    (h : ∀ member ∈ members, member.1 < key) :
    insertMember key value members = members ++ [(key, value)] := by
  induction members with
  | nil => rfl
  | cons head members ih =>
      obtain ⟨other, old⟩ := head
      obtain ⟨hother, hmembers⟩ := List.forall_mem_cons.mp h
      rw [insertMember, if_neg hother.not_gt, if_neg hother.ne', ih hmembers]
      rfl

theorem sortedItems_eq_map (items : List Value) : sortedItems items = items.map sorted := by
  induction items with
  | nil => rfl
  | cons item items ih => rw [sortedItems, ih, List.map_cons]

theorem mem_sortedMembers {done members : List (String × Value)} {member : String × Value}
    (h : member ∈ sortedMembers done members) :
    member ∈ done ∨ ∃ source ∈ members, member.2 = source.2.sorted := by
  induction members generalizing done with
  | nil => exact Or.inl h
  | cons head members ih =>
      obtain ⟨key, value⟩ := head
      rw [sortedMembers, sortedMember] at h
      rcases ih h with h | ⟨source, hsource, hvalue⟩
      · rcases mem_insertMember h with rfl | h
        · exact Or.inr ⟨(key, value), List.mem_cons_self, rfl⟩
        · exact Or.inl h
      · exact Or.inr ⟨source, List.mem_cons_of_mem _ hsource, hvalue⟩

theorem pairwise_sortedMembers {done members : List (String × Value)}
    (h : done.Pairwise (·.1 < ·.1)) : (sortedMembers done members).Pairwise (·.1 < ·.1) := by
  induction members generalizing done with
  | nil => exact h
  | cons head members ih =>
      obtain ⟨key, value⟩ := head
      exact ih (pairwise_insertMember h)

/-- Members in order stay as they are. -/
theorem sortedMembers_eq_append {done members : List (String × Value)}
    (hkeys : (done ++ members).Pairwise (·.1 < ·.1))
    (hvalues : ∀ member ∈ members, member.2.sorted = member.2) :
    sortedMembers done members = done ++ members := by
  induction members generalizing done with
  | nil => rw [sortedMembers, List.append_nil]
  | cons head members ih =>
      obtain ⟨key, value⟩ := head
      obtain ⟨hvalue, hmore⟩ := List.forall_mem_cons.mp hvalues
      have hlast : ∀ member ∈ done, member.1 < key := fun member hmember =>
        (List.pairwise_append.mp hkeys).2.2 member hmember (key, value) List.mem_cons_self
      rw [List.append_cons] at hkeys
      rw [sortedMembers, sortedMember, hvalue, insertMember_eq_append hlast, ih hkeys hmore,
        ← List.append_cons]

theorem ordered_sorted (value : Value) : value.sorted.Ordered := by
  induction value with
  | null => exact .null
  | bool value => exact .bool
  | number n => exact .number
  | string content => exact .string
  | array items ih =>
      rw [sorted, sortedItems_eq_map]
      exact .array (List.forall_mem_map.mpr ih)
  | object members ih =>
      rw [sorted]
      refine .object (pairwise_sortedMembers .nil) fun member hmember => ?_
      rcases mem_sortedMembers hmember with h | ⟨source, hsource, hvalue⟩
      · exact absurd h List.not_mem_nil
      · exact hvalue ▸ ih source hsource

theorem Ordered.sorted_eq {value : Value} (h : value.Ordered) : value.sorted = value := by
  induction value with
  | null => rfl
  | bool value => rfl
  | number n => rfl
  | string content => rfl
  | array items ih =>
      cases h with
      | array hitems =>
          rw [sorted, sortedItems_eq_map]
          congr 1
          calc
            items.map Value.sorted = items.map id :=
              List.map_congr_left fun item hitem => ih item hitem (hitems item hitem)
            _ = items := List.map_id items
  | object members ih =>
      cases h with
      | object hkeys hmembers =>
          have hvalues : ∀ member ∈ members, member.2.sorted = member.2 := fun member hmember =>
            ih member hmember (hmembers member hmember)
          have hsame : sortedMembers [] members = [] ++ members :=
            sortedMembers_eq_append hkeys hvalues
          rw [sorted, hsame, List.nil_append]

/-- Sorting again changes nothing. -/
@[simp]
theorem sorted_sorted (value : Value) : value.sorted.sorted = value.sorted :=
  (ordered_sorted value).sorted_eq

/-- Sorting a value leaves it acceptable. -/
theorem Fits.sorted {value : Value} {levels : ℕ} (h : value.Fits levels) :
    value.sorted.Fits levels := by
  induction value generalizing levels with
  | null => exact .null
  | bool value => exact .bool
  | number n => exact h
  | string content => exact .string
  | array items ih =>
      cases h with
      | array hitems =>
          rw [Value.sorted, sortedItems_eq_map]
          exact .array (List.forall_mem_map.mpr fun item hitem => ih item hitem (hitems item hitem))
  | object members ih =>
      cases h with
      | object hmembers =>
          rw [Value.sorted]
          refine .object fun member hmember => ?_
          rcases mem_sortedMembers hmember with h | ⟨source, hsource, hvalue⟩
          · exact absurd h List.not_mem_nil
          · exact hvalue ▸ ih source hsource (hmembers source hsource)

end Value

end StreetDogs.Json
