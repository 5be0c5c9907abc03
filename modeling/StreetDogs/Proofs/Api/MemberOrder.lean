import StreetDogs.Proofs.Api.RoundTrip
import StreetDogs.Server
import Mathlib.Data.List.Perm.Basic

/-!
# The order of members

A request is made from the members of its object without regard to their order,
and members that its kind does not know make no difference.  A second kind and a
second value of a field are refused.
-/

namespace StreetDogs.Json

def Members.ofList : List (Option String × Node) → Members
  | [] => closed
  | member :: members => cons member.1 member.2 (ofList members)

/-- The text is an object with the given members in order, and nothing more. -/
def IsObject (text : String) (members : List (Option String × Node)) : Prop :=
  Document.read text.toList = ⟨.object (.ofList members), true⟩

theorem Members.isPlain_ofList {members : List (Option String × Node)}
    (h : ∀ member ∈ members, member.1.isSome ∧ member.2.IsPlain) : (ofList members).IsPlain := by
  induction members with
  | nil => trivial
  | cons member members ih =>
      obtain ⟨⟨hkey, hvalue⟩, hmembers⟩ := List.forall_mem_cons.mp h
      exact ⟨hkey, hvalue, ih hmembers⟩

theorem exists_isObject {members : List (Option String × Node)}
    (h : ∀ member ∈ members, member.1.isSome ∧ member.2.IsPlain) :
    ∃ text, IsObject text members :=
  ⟨_, Node.read_text (Members.isPlain_ofList h)⟩

theorem Value.isObject_text (fields : List (String × Value)) :
    IsObject (object fields).text (fields.map memberNode) := by
  have hnodes : Members.ofList (fields.map memberNode) = memberNodes fields := by
    induction fields with
    | nil => rfl
    | cons field fields ih => rw [List.map_cons, Members.ofList, ih, memberNodes]
  rw [IsObject, read_text, hnodes]
  rfl

end StreetDogs.Json

namespace StreetDogs.Api

open Json (Value Fault Members Node Document IsObject)
open Json.Decoder

namespace Request

variable {levels : ℕ} {kind : Kind} {request : Request}
  {entries : List (Option String × Node)} {envelope : Envelope (List (String × Value))}

/-- The entry of an object is the member with the name and the value, and not the
kind. -/
structure Reads (levels : ℕ) (entry : Option String × Node) (member : String × Value) : Prop where
  name_eq : entry.1 = some member.1
  name_ne : member.1 ≠ "type"
  any_eq : any levels entry.2 = .ok member.2

theorem exists_reads {others : List (Option String × Node)} {members : List (String × Value)}
    (h : List.Forall₂ (Reads levels) others members) :
    ∀ entry ∈ others, ∃ member, Reads levels entry member := by
  induction h with
  | nil => exact List.forall_mem_nil _
  | cons hreads _ ih => exact List.forall_mem_cons.mpr ⟨⟨_, hreads⟩, ih⟩

/-- In some order the entries are one kind and the other members. -/
def Collects (levels : ℕ) (entries : List (Option String × Node))
    (envelope : Envelope (List (String × Value))) : Prop :=
  ∃ node others, entries.Perm ((some "type", node) :: others) ∧
    kindOf node = .ok envelope.kind ∧ List.Forall₂ (Reads levels) others envelope.content

theorem collect_some_iff {others : List (String × Value)} :
    collect levels (some kind) others (.ofList entries) = .ok envelope ↔
      ∃ members, List.Forall₂ (Reads levels) entries members ∧
        envelope = ⟨kind, others ++ members⟩ := by
  induction entries generalizing others with
  | nil =>
      rw [Members.ofList, collect, Except.ok.injEq]
      simp only [List.forall₂_nil_left_iff, exists_eq_left, List.append_nil, eq_comm]
  | cons entry entries ih =>
      rw [Members.ofList, collect_cons]
      constructor
      · intro h
        obtain ⟨name, hname, h⟩ := bind_eq_ok.mp h
        split_ifs at h with htype
        obtain ⟨value, hvalue, h⟩ := bind_eq_ok.mp h
        obtain ⟨members, hmembers, rfl⟩ := ih.mp h
        refine ⟨(name, value) :: members, .cons ?_ hmembers, by rw [List.append_assoc]; rfl⟩
        exact ⟨content_eq_ok_iff.mp hname, htype, hvalue⟩
      · rintro ⟨_, hentries, rfl⟩
        obtain _ | ⟨hentry, hmembers⟩ := hentries
        rw [hentry.name_eq, content, ok_bind, if_neg hentry.name_ne, hentry.any_eq, ok_bind]
        exact ih.mpr ⟨_, hmembers, by rw [List.append_assoc]; rfl⟩

theorem collect_none_iff {others : List (String × Value)} :
    collect levels none others (.ofList entries) = .ok envelope ↔
      ∃ before node after members, entries = before ++ (some "type", node) :: after ∧
        kindOf node = .ok envelope.kind ∧
        List.Forall₂ (Reads levels) (before ++ after) members ∧
        envelope.content = others ++ members := by
  induction entries generalizing others with
  | nil => exact iff_of_false nofun (by simp)
  | cons entry entries ih =>
      rw [Members.ofList, collect_cons]
      constructor
      · intro h
        obtain ⟨name, hname, h⟩ := bind_eq_ok.mp h
        rw [content_eq_ok_iff] at hname
        split_ifs at h with htype
        · obtain ⟨kind, hkind, h⟩ := bind_eq_ok.mp h
          obtain ⟨members, hmembers, rfl⟩ := collect_some_iff.mp h
          exact ⟨[], entry.2, entries, members, by rw [← htype, ← hname]; rfl, hkind, hmembers, rfl⟩
        · obtain ⟨value, hvalue, h⟩ := bind_eq_ok.mp h
          obtain ⟨before, node, after, members, rfl, hkind, hmembers, hcontent⟩ := ih.mp h
          refine ⟨entry :: before, node, after, (name, value) :: members, rfl, hkind,
            .cons ⟨hname, htype, hvalue⟩ hmembers, ?_⟩
          rw [hcontent, ← List.append_cons]
      · rintro ⟨_ | ⟨first, before⟩, node, after, members, hentries, hkind, hmembers, hcontent⟩
        · obtain ⟨rfl, rfl⟩ := List.cons.inj hentries
          rw [content, ok_bind, if_pos rfl, hkind]
          exact collect_some_iff.mpr ⟨members, hmembers, by rw [← hcontent]⟩
        · obtain ⟨rfl, rfl⟩ := List.cons.inj hentries
          obtain _ | ⟨hentry, hmembers⟩ := hmembers
          rw [hentry.name_eq, content, ok_bind, if_neg hentry.name_ne, hentry.any_eq, ok_bind]
          refine ih.mpr ⟨before, node, after, _, rfl, hkind, hmembers, ?_⟩
          rw [hcontent, ← List.append_cons]

/-- What is collected is collected in every order of the entries, with the members
in that order. -/
theorem collects_iff : Collects levels entries envelope ↔
    ∃ content, content.Perm envelope.content ∧
      collect levels none [] (.ofList entries) = .ok ⟨envelope.kind, content⟩ := by
  constructor
  · rintro ⟨node, others, hperm, hkind, hothers⟩
    obtain ⟨before, after, rfl⟩ := List.append_of_mem (hperm.mem_iff.mpr List.mem_cons_self)
    have hrest : (before ++ after).Perm others := (List.perm_middle.symm.trans hperm).cons_inv
    obtain ⟨content, hcontent, hsame⟩ := List.perm_comp_forall₂ hrest hothers
    exact ⟨content, hsame, collect_none_iff.mpr
      ⟨before, node, after, content, rfl, hkind, hcontent, rfl⟩⟩
  · rintro ⟨content, hperm, h⟩
    obtain ⟨before, node, after, members, rfl, hkind, hmembers, rfl⟩ := collect_none_iff.mp h
    obtain ⟨others, hothers, hsame⟩ := List.perm_comp_forall₂ hperm.symm hmembers.flip
    exact ⟨node, others, List.perm_middle.trans (hsame.symm.cons _), hkind, hothers.flip⟩

theorem isPlain_of_kindOf {node : Node} (h : kindOf node = .ok kind) : node.IsPlain := by
  cases node with
  | string text =>
      obtain ⟨name, hname, -⟩ := bind_eq_ok.mp h
      obtain rfl := content_eq_ok_iff.mp hname
      rfl
  | _ => cases h

/-- What is collected can stand in a text. -/
theorem Collects.exists_isObject (h : Collects levels entries envelope) :
    ∃ text, IsObject text entries := by
  obtain ⟨node, others, hperm, hkind, hothers⟩ := h
  refine Json.exists_isObject fun entry hentry => ?_
  rcases List.mem_cons.mp (hperm.mem_iff.mp hentry) with rfl | hmem
  · exact ⟨rfl, isPlain_of_kindOf hkind⟩
  · obtain ⟨member, hreads⟩ := exists_reads hothers entry hmem
    exact ⟨hreads.name_eq ▸ rfl, Value.isPlain_of_any hreads.any_eq⟩

theorem Collects.perm {permuted : List (Option String × Node)}
    (h : Collects levels entries envelope) (hperm : permuted.Perm entries) :
    Collects levels permuted envelope := by
  obtain ⟨node, others, hentries, hkind, hothers⟩ := h
  exact ⟨node, others, hperm.trans hentries, hkind, hothers⟩

/-- Two members in a row can change places. -/
theorem Places.swap {draft middle last : List (Option Value)} {first second : String × Value}
    (hfirst : Places kind draft first middle) (hsecond : Places kind middle second last) :
    ∃ other, Places kind draft second other ∧ Places kind other first last := by
  cases hfirst with
  | unknown hfield => exact ⟨last, hsecond, .unknown hfield⟩
  | field field hfield hempty hcheck =>
      cases hsecond with
      | unknown hother => exact ⟨draft, .unknown hother, .field field hfield hempty hcheck⟩
      | field other hother hvacant hpass =>
          by_cases hsame : field = other
          · subst hsame
            have hbeyond : draft.length ≤ field := by
              by_contra hin
              rw [List.getElem?_set_self (not_le.mp hin)] at hvacant
              cases hvacant
            have hsecond := Places.field field hother hempty hpass
            have hfirst := Places.field field hfield hempty hcheck
            rw [List.set_eq_of_length_le hbeyond] at hsecond hfirst
            rw [List.set_eq_of_length_le hbeyond, List.set_eq_of_length_le hbeyond]
            exact ⟨draft, hsecond, hfirst⟩
          · rw [List.getElem?_set_ne hsame] at hvacant
            refine ⟨_, .field other hother hvacant hpass, ?_⟩
            rw [List.set_comm _ _ hsame]
            refine .field field hfield ?_ hcheck
            rwa [List.getElem?_set_ne (Ne.symm hsame)]

theorem distribute_perm {draft filled : List (Option Value)}
    {members permuted : List (String × Value)} (hperm : members.Perm permuted)
    (h : distribute kind draft members = .ok filled) :
    distribute kind draft permuted = .ok filled := by
  induction hperm generalizing draft with
  | nil => exact h
  | cons member _ ih =>
      obtain ⟨next, hplaces, h⟩ := distribute_cons_eq_ok_iff.mp h
      exact distribute_cons_eq_ok_iff.mpr ⟨next, hplaces, ih h⟩
  | swap first second members =>
      obtain ⟨middle, hsecond, h⟩ := distribute_cons_eq_ok_iff.mp h
      obtain ⟨last, hfirst, h⟩ := distribute_cons_eq_ok_iff.mp h
      obtain ⟨other, hfirst, hsecond⟩ := hsecond.swap hfirst
      exact distribute_cons_eq_ok_iff.mpr
        ⟨other, hfirst, distribute_cons_eq_ok_iff.mpr ⟨last, hsecond, h⟩⟩
  | trans _ _ ih₁ ih₂ => exact ih₂ (ih₁ h)

theorem ofMembers_perm {members permuted : List (String × Value)} (hperm : members.Perm permuted)
    (h : ofMembers ⟨kind, members⟩ = .ok request) : ofMembers ⟨kind, permuted⟩ = .ok request := by
  obtain ⟨filled, hfilled, h⟩ := bind_eq_ok.mp h
  exact bind_eq_ok.mpr ⟨filled, distribute_perm hperm hfilled, h⟩

/-- A request is read exactly if it is made from what the entries are in some
order. -/
theorem readMembers_ofList_eq_ok_iff :
    readMembers levels none [] (.ofList entries) = .ok request ↔
      ∃ envelope, Collects levels entries envelope ∧ ofMembers envelope = .ok request := by
  constructor
  · intro h
    obtain ⟨envelope, hcollect, h⟩ := bind_eq_ok.mp h
    exact ⟨envelope, collects_iff.mpr ⟨envelope.content, .refl _, hcollect⟩, h⟩
  · rintro ⟨envelope, hcollects, h⟩
    obtain ⟨content, hperm, hcollect⟩ := collects_iff.mp hcollects
    exact bind_eq_ok.mpr ⟨_, hcollect, ofMembers_perm hperm.symm h⟩

theorem fieldOf?_eq_none_iff {name : String} :
    fieldOf? kind name = none ↔ ∀ names ∈ fieldNames kind, name ∉ names := by
  rw [fieldOf?, List.findIdx?_eq_none_iff]
  simp only [List.contains_eq_mem, decide_eq_false_iff_not]

/-- A member that the kind does not know is passed over. -/
theorem ofMembers_cons_unknown {member : String × Value} (h : fieldOf? kind member.1 = none)
    (members : List (String × Value)) :
    ofMembers ⟨kind, member :: members⟩ = ofMembers ⟨kind, members⟩ := by
  rw [ofMembers, ofMembers]
  dsimp only
  rw [distribute, h]

theorem Collects.cons {entry : Option String × Node} {member : String × Value}
    (h : Collects levels entries envelope) (hentry : Reads levels entry member) :
    Collects levels (entry :: entries) ⟨envelope.kind, member :: envelope.content⟩ := by
  obtain ⟨node, others, hperm, hkind, hothers⟩ := h
  exact ⟨node, entry :: others, (hperm.cons entry).trans (.swap _ _ _), hkind, .cons hentry hothers⟩

/-! ## Repeated members -/

theorem kind_of_ofFields {draft : List (Option Value)} (h : ofFields kind draft = .ok request) :
    request.kind = kind := by
  cases kind with
  | getMaps | tick =>
      obtain rfl := Except.ok.inj h
      rfl
  | getMap | listPlayers | getState =>
      rw [ofFields, bind_eq_ok] at h
      obtain ⟨_, -, h⟩ := h
      obtain rfl := Except.ok.inj h
      rfl
  | join | setDirection =>
      simp only [ofFields, bind_eq_ok] at h
      obtain ⟨_, -, _, -, h⟩ := h
      obtain rfl := Except.ok.inj h
      rfl

theorem kind_of_ofMembers (h : ofMembers envelope = .ok request) :
    request.kind = envelope.kind := by
  obtain ⟨_, -, h⟩ := bind_eq_ok.mp h
  exact kind_of_ofFields h

theorem fieldOf?_type (kind : Kind) : fieldOf? kind "type" = none := by
  cases kind <;> rfl

theorem fieldOf?_lt {name : String} {field : ℕ} (h : fieldOf? kind name = some field) :
    field < (fieldNames kind).length :=
  (List.findIdx?_eq_some_iff_findIdx_eq.mp h).1

/-- All names of a field stand for that field and for no other. -/
theorem exists_fieldOf? {names : List String} {name other : String}
    (hnames : names ∈ fieldNames kind) (hname : name ∈ names) (hother : other ∈ names) :
    ∃ field, fieldOf? kind name = some field ∧ fieldOf? kind other = some field := by
  have hsame : ∀ names ∈ fieldNames kind, ∀ name ∈ names, ∀ other ∈ names,
      (fieldOf? kind name).isSome ∧ fieldOf? kind name = fieldOf? kind other := by
    cases kind <;> decide
  obtain ⟨hsome, heq⟩ := hsame names hnames name hname other hother
  obtain ⟨field, hfield⟩ := Option.isSome_iff_exists.mp hsome
  exact ⟨field, hfield, heq ▸ hfield⟩

def fieldsOf (kind : Kind) (members : List (String × Value)) : List ℕ :=
  members.filterMap fun member => fieldOf? kind member.1

def entryFields (kind : Kind) (entries : List (Option String × Node)) : List ℕ :=
  entries.filterMap fun entry => entry.1.bind (fieldOf? kind)

/-- Every field takes at most one member, and only if it has no value yet. -/
theorem nodup_of_distribute {draft filled : List (Option Value)} {members : List (String × Value)}
    (hlength : draft.length = (fieldNames kind).length)
    (h : distribute kind draft members = .ok filled) :
    (fieldsOf kind members).Nodup ∧
      ∀ field ∈ fieldsOf kind members, (draft[field]?).join = none := by
  induction members generalizing draft with
  | nil => exact ⟨.nil, List.forall_mem_nil _⟩
  | cons member members ih =>
      obtain ⟨next, hplaces, h⟩ := distribute_cons_eq_ok_iff.mp h
      cases hplaces with
      | unknown hfield =>
          rw [fieldsOf, List.filterMap_cons, hfield]
          exact ih hlength h
      | field field hfield hempty =>
          have hin : field < draft.length := hlength ▸ fieldOf?_lt hfield
          obtain ⟨hnodup, hvacant⟩ := ih (List.length_set.trans hlength) h
          have hfresh : field ∉ fieldsOf kind members := by
            intro hmem
            have hjoin := hvacant field hmem
            rw [List.getElem?_set_self hin] at hjoin
            cases hjoin
          rw [fieldsOf, List.filterMap_cons, hfield]
          refine ⟨List.nodup_cons.mpr ⟨hfresh, hnodup⟩, List.forall_mem_cons.mpr ⟨hempty, ?_⟩⟩
          intro other hother
          have hne : field ≠ other := fun heq => hfresh (heq ▸ hother)
          rw [← hvacant other hother, List.getElem?_set_ne hne]

section Entries

variable {others : List (Option String × Node)} {members : List (String × Value)}

theorem entryFields_eq (h : List.Forall₂ (Reads levels) others members) :
    entryFields kind others = fieldsOf kind members := by
  induction h with
  | nil => rfl
  | cons hreads _ ih =>
      rw [entryFields, fieldsOf, List.filterMap_cons, List.filterMap_cons, hreads.name_eq,
        Option.bind_some]
      rw [entryFields, fieldsOf] at ih
      rw [ih]

theorem name_ne_type (h : List.Forall₂ (Reads levels) others members) :
    ∀ entry ∈ others, entry.1 ≠ some "type" := by
  intro entry hentry htype
  obtain ⟨member, hreads⟩ := exists_reads h entry hentry
  rw [hreads.name_eq, Option.some_inj] at htype
  exact hreads.name_ne htype

end Entries

theorem Collects.nodup_entryFields (h : Collects levels entries envelope)
    (hmembers : ofMembers envelope = .ok request) : (entryFields envelope.kind entries).Nodup := by
  obtain ⟨node, others, hperm, -, hothers⟩ := h
  have hsame : (entryFields envelope.kind entries).Perm
      (fieldsOf envelope.kind envelope.content) := by
    refine (hperm.filterMap _).trans ?_
    rw [List.filterMap_cons, Option.bind_some, fieldOf?_type]
    exact .of_eq (entryFields_eq hothers)
  obtain ⟨filled, hfilled, -⟩ := bind_eq_ok.mp hmembers
  exact hsame.nodup_iff.mpr (nodup_of_distribute (List.length_map _) hfilled).1

theorem Collects.count_type (h : Collects levels entries envelope) :
    (entries.map Prod.fst).count (some "type") = 1 := by
  obtain ⟨node, others, hperm, -, hothers⟩ := h
  have hnone : some "type" ∉ others.map Prod.fst := fun hmem => by
    obtain ⟨entry, hentry, htype⟩ := List.mem_map.mp hmem
    exact name_ne_type hothers entry hentry htype
  rw [(hperm.map Prod.fst).count_eq, List.map_cons, List.count_cons_self,
    List.count_eq_zero_of_not_mem hnone]

/-- The entry named `type` gives the kind. -/
theorem Collects.kindOf_eq {node : Node} (h : Collects levels entries envelope)
    (hnode : (some "type", node) ∈ entries) : kindOf node = .ok envelope.kind := by
  obtain ⟨found, others, hperm, hkind, hothers⟩ := h
  rcases List.mem_cons.mp (hperm.mem_iff.mp hnode) with heq | hmem
  · rw [(Prod.mk.inj heq).2, hkind]
  · exact absurd rfl (name_ne_type hothers _ hmem)

theorem Collects.exists_kind (h : Collects levels entries envelope) :
    ∃ node, (some "type", node) ∈ entries := by
  obtain ⟨node, others, hperm, -, -⟩ := h
  exact ⟨node, hperm.mem_iff.mpr List.mem_cons_self⟩

/-- The name is that of the kind, or a name of a field. -/
def Knows (kind : Kind) (name : String) : Prop :=
  name = "type" ∨ ∃ names ∈ fieldNames kind, name ∈ names

instance (kind : Kind) (name : String) : Decidable (Knows kind name) :=
  inferInstanceAs (Decidable (_ ∨ _))

/-- The name is that of the kind, or a name of a field that one of the entries
belongs to. -/
def Repeats (kind : Kind) (entries : List (Option String × Node)) (name : String) : Prop :=
  name = "type" ∨ ∃ names ∈ fieldNames kind, name ∈ names ∧
    ∃ other ∈ names, some other ∈ entries.map Prod.fst

instance (kind : Kind) (entries : List (Option String × Node)) (name : String) :
    Decidable (Repeats kind entries name) :=
  inferInstanceAs (Decidable (_ ∨ _))

/-- No request is read with an entry more that repeats one. -/
theorem not_collects_of_repeats {extended : List (Option String × Node)} {name : String}
    {node : Node} {again : Envelope (List (String × Value))} {other : Request}
    (h : Collects levels entries envelope) (hrepeats : Repeats envelope.kind entries name)
    (hextended : extended.Perm ((some name, node) :: entries))
    (hagain : Collects levels extended again) : ofMembers again ≠ .ok other := by
  intro hother
  rcases hrepeats with rfl | ⟨names, hnames, hname, known, hknown, hmem⟩
  · have hcount := hagain.count_type
    rw [(hextended.map Prod.fst).count_eq, List.map_cons, List.count_cons_self, h.count_type]
      at hcount
    cases hcount
  · obtain ⟨field, hfield, hpresent⟩ := exists_fieldOf? hnames hname hknown
    obtain ⟨found, hfound⟩ := h.exists_kind
    have hkind : again.kind = envelope.kind := by
      have hthere := hagain.kindOf_eq (hextended.mem_iff.mpr (List.mem_cons_of_mem _ hfound))
      rw [h.kindOf_eq hfound, Except.ok.injEq] at hthere
      exact hthere.symm
    have hnodup := hagain.nodup_entryFields hother
    rw [hkind, entryFields, (hextended.filterMap _).nodup_iff, List.filterMap_cons,
      Option.bind_some, hfield] at hnodup
    obtain ⟨entry, hentry, hkey⟩ := List.mem_map.mp hmem
    refine (List.nodup_cons.mp hnodup).1 (List.mem_filterMap.mpr ⟨entry, hentry, ?_⟩)
    rw [hkey, Option.bind_some, hpresent]

/-- A text with the members as its only content is read as the members are. -/
theorem parse_eq_ok_iff {text : String} (htext : IsObject text entries) :
    parse text = .ok request ↔
      ∃ envelope, Collects levelsInside entries envelope ∧ ofMembers envelope = .ok request := by
  rw [← readMembers_ofList_eq_ok_iff, parse, decode, htext]
  change readMembers levelsInside none [] _ >>= _ = _ ↔ _
  rw [bind_eq_ok]
  simp only [if_true, pure_eq_ok, Except.ok.injEq, exists_eq_right]

/-- The members of an accepted object may stand in any order.  One member more makes
no difference if it is not known to the kind, as long as its value can be read, and
it makes a bad request if it repeats the kind or a field; wherever it stands. -/
theorem parse_rearranged {body : String} (hbody : IsObject body entries)
    (haccepted : parse body = .ok request) :
    (∀ permuted, permuted.Perm entries → (∃ other, IsObject other permuted) ∧
      ∀ other, IsObject other permuted → parse other = .ok request) ∧
    ∀ extended name node, extended.Perm ((some name, node) :: entries) →
      (¬ Knows request.kind name → (∃ value, any levelsInside node = .ok value) →
        (∃ other, IsObject other extended) ∧
          ∀ other, IsObject other extended → parse other = .ok request) ∧
      (Repeats request.kind entries name → ∀ other, IsObject other extended →
        ∃ fault, parse other = .error fault ∧
          ∀ server elapsed, (Server.handleText server elapsed other).1 =
            .error (.badRequest fault)) := by
  obtain ⟨envelope, hcollects, hmembers⟩ := (parse_eq_ok_iff hbody).mp haccepted
  have hread {others : List (Option String × Node)} {found : Envelope (List (String × Value))}
      (hfound : Collects levelsInside others found) (hmade : ofMembers found = .ok request) :
      (∃ other, IsObject other others) ∧
        ∀ other, IsObject other others → parse other = .ok request :=
    ⟨hfound.exists_isObject, fun other hother =>
      (parse_eq_ok_iff hother).mpr ⟨found, hfound, hmade⟩⟩
  refine ⟨fun permuted hperm => hread (hcollects.perm hperm) hmembers,
    fun extended name node hextended => ?_⟩
  rw [kind_of_ofMembers hmembers]
  constructor
  · rintro hunknown ⟨value, hvalue⟩
    obtain ⟨htype, hfields⟩ := not_or.mp hunknown
    have hfield : fieldOf? envelope.kind name = none :=
      fieldOf?_eq_none_iff.mpr fun names hnames hname => hfields ⟨names, hnames, hname⟩
    have hreads : Reads levelsInside (some name, node) (name, value) := ⟨rfl, htype, hvalue⟩
    exact hread ((hcollects.cons hreads).perm hextended)
      ((ofMembers_cons_unknown hfield _).trans hmembers)
  · intro hrepeats other hother
    cases hparse : parse other with
    | ok found =>
        obtain ⟨again, hagain, hfound⟩ := (parse_eq_ok_iff hother).mp hparse
        exact absurd hfound (not_collects_of_repeats hcollects hrepeats hextended hagain)
    | error fault =>
        refine ⟨fault, rfl, fun server elapsed => ?_⟩
        rw [Server.handleText, hparse]

def turnLeft : List (String × Value) :=
  [("direction", .string "L"), ("token", .string "t"), ("type", .string "setDirection")]

theorem parse_rearranged_turnLeft :
    parse (Value.object turnLeft).text = .ok (setDirection "t" "L") ∧
    parse (Value.object turnLeft.reverse).text = .ok (setDirection "t" "L") ∧
    parse (Value.object (("id", .array [.null]) :: turnLeft)).text = .ok (setDirection "t" "L") ∧
    ∃ fault, parse (Value.object (turnLeft ++ [("move", .string "L")])).text = .error fault := by
  have haccepted : parse (Value.object turnLeft).text = .ok (setDirection "t" "L") := by
    rw [parse, decode_text]
    with_unfolding_all rfl
  obtain ⟨hperm, hmore⟩ := parse_rearranged (Value.isObject_text turnLeft) haccepted
  refine ⟨haccepted, ?_, ?_, ?_⟩
  · exact (hperm _ ((List.reverse_perm turnLeft).map _)).2 _ (Value.isObject_text _)
  · obtain ⟨hunknown, -⟩ := hmore _ "id" (Value.array [.null]).node (.refl _)
    exact (hunknown (by decide) ⟨.array [.null], rfl⟩).2 _
      (Value.isObject_text (("id", _) :: turnLeft))
  · obtain ⟨-, hrepeated⟩ := hmore _ "move" (Value.string "L").node
      ((List.perm_append_singleton ("move", .string "L") turnLeft).map Value.memberNode)
    obtain ⟨fault, hfault, -⟩ := hrepeated (by decide) _ (Value.isObject_text _)
    exact ⟨fault, hfault⟩

end Request

end StreetDogs.Api
