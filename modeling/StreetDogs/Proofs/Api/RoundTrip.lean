import StreetDogs.Proofs.Json.Value
import StreetDogs.Api.Request

/-!
# Requests read back

An accepted request comes back from the text written for it.  What was spelled
in another way is the same request: `direction` for `move`, and a time of `null`
for no time.
-/

namespace StreetDogs.Json.Members

def keys : Members → List (Option String)
  | closed | cut => []
  | cons key _ tail => key :: tail.keys

def mapKeys (change : String → String) : Members → Members
  | closed => closed
  | cut => cut
  | cons key value tail => cons (key.map change) value (tail.mapKeys change)

end StreetDogs.Json.Members

namespace StreetDogs.Api

open Json (Value Fault Decoder Items Members Node Document ReadsBack)
open Json.Decoder

namespace Request

variable {levels : ℕ} {kind : Kind}

/-- The levels of nesting that are left inside a request. -/
def levelsInside : ℕ := 126

/-- The time of an accepted tick is not `null`, its members are in order, and it
is nested no deeper than allowed. -/
structure AcceptedTime (time : Value) : Prop where
  ne_null : time ≠ .null
  sorted : time.sorted = time
  fits : time.Fits levelsInside

def Accepted : Request → Prop
  | tick (some time) => AcceptedTime time
  | _ => True

def reals : Request → List Float
  | tick (some time) => time.reals
  | _ => []

theorem acceptedTime_of_timeOf {value time : Value} (hfits : value.Fits levelsInside)
    (h : timeOf value = some time) : AcceptedTime time := by
  have hnull : value.sorted ≠ .null := by
    rintro hsorted
    cases value with
    | null => cases h
    | _ => cases hsorted
  have htime : value.sorted = time := by
    cases value with
    | null => cases h
    | _ => exact Option.some.inj h
  subst htime
  exact ⟨hnull, value.sorted_sorted, hfits.sorted⟩

/-- The values that a request is made from fit. -/
theorem accepted_of_ofFields {draft : List (Option Value)} {request : Request}
    (hdraft : ∀ value, some value ∈ draft → value.Fits levelsInside)
    (h : ofFields kind draft = .ok request) : request.Accepted := by
  cases kind with
  | tick =>
      obtain rfl := Except.ok.inj h
      cases htime : (draft[0]?).join.bind timeOf with
      | none => trivial
      | some time =>
          obtain ⟨value, hvalue, htime⟩ := Option.bind_eq_some_iff.mp htime
          rw [Option.join_eq_some_iff] at hvalue
          exact acceptedTime_of_timeOf (hdraft value (List.mem_of_getElem? hvalue)) htime
  | getMaps =>
      obtain rfl := Except.ok.inj h
      trivial
  | getMap | listPlayers | getState =>
      rw [ofFields, bind_eq_ok] at h
      obtain ⟨_, -, h⟩ := h
      obtain rfl := Except.ok.inj h
      trivial
  | join | setDirection =>
      simp only [ofFields, bind_eq_ok] at h
      obtain ⟨_, -, _, -, h⟩ := h
      obtain rfl := Except.ok.inj h
      trivial

/-- The member is put into its field of a draft, or passed over if it has none. -/
inductive Places (kind : Kind) (draft : List (Option Value)) (member : String × Value) :
    List (Option Value) → Prop where
  | unknown (hfield : fieldOf? kind member.1 = none) : Places kind draft member draft
  | field (field : ℕ) (hfield : fieldOf? kind member.1 = some field)
    (hempty : (draft[field]?).join = none) (hcheck : checkField kind member.2 = .ok ()) :
    Places kind draft member (draft.set field (some member.2))

theorem distribute_cons_eq_ok_iff {draft filled : List (Option Value)} {member : String × Value}
    {others : List (String × Value)} :
    distribute kind draft (member :: others) = .ok filled ↔
      ∃ next, Places kind draft member next ∧ distribute kind next others = .ok filled := by
  obtain ⟨key, value⟩ := member
  rw [distribute]
  constructor
  · intro h
    split at h
    · next hfield => exact ⟨draft, .unknown hfield, h⟩
    · next field hfield =>
        split at h
        · cases h
        · next hempty =>
            obtain ⟨⟨⟩, hcheck, h⟩ := bind_eq_ok.mp h
            exact ⟨_, .field field hfield hempty hcheck, h⟩
  · rintro ⟨next, hplaces, h⟩
    cases hplaces with
    | unknown hfield =>
        simp only at hfield
        rw [hfield]
        exact h
    | field field hfield hempty hcheck =>
        simp only at hfield hcheck
        simp only [hfield, hempty, hcheck, ok_bind, h]

/-- Fields hold nothing but the values of members. -/
theorem mem_of_distribute {draft filled : List (Option Value)} {others : List (String × Value)}
    (h : distribute kind draft others = .ok filled) {value : Value} (hvalue : some value ∈ filled) :
    some value ∈ draft ∨ ∃ member ∈ others, member.2 = value := by
  induction others generalizing draft with
  | nil =>
      obtain rfl := Except.ok.inj h
      exact Or.inl hvalue
  | cons member others ih =>
      obtain ⟨next, hplaces, h⟩ := distribute_cons_eq_ok_iff.mp h
      have hnext : some value ∈ next → some value ∈ draft ∨ member.2 = value := by
        intro hmem
        cases hplaces with
        | unknown => exact Or.inl hmem
        | field =>
            exact (List.mem_or_eq_of_mem_set hmem).imp_right fun heq => (Option.some.inj heq).symm
      rcases ih h with hmem | ⟨other, hother, rfl⟩
      · exact (hnext hmem).imp_right fun heq => ⟨member, List.mem_cons_self, heq⟩
      · exact Or.inr ⟨other, List.mem_cons_of_mem _ hother, rfl⟩

/-- A member named `type` gives the kind, and any other is kept for later. -/
theorem collect_cons (found : Option Kind) (others : List (String × Value)) (key : Option String)
    (value : Node) (tail : Members) :
    collect levels found others (.cons key value tail) =
      content key >>= fun name =>
        if name = "type" then
          match found with
          | some _ => throw (.duplicateField "type")
          | none => kindOf value >>= fun kind => collect levels (some kind) others tail
        else
          any levels value >>= fun value =>
            collect levels found (others ++ [(name, value)]) tail := by
  cases found <;> rfl

/-- Whatever was collected fits. -/
theorem fits_of_collect : ∀ {members : Members} {found : Option Kind}
    {others : List (String × Value)} {envelope : Envelope (List (String × Value))},
    collect levels found others members = .ok envelope →
      (∀ member ∈ others, member.2.Fits levels) →
        ∀ member ∈ envelope.content, member.2.Fits levels
  | .closed, found, others, envelope, h, hothers => by
      cases found with
      | none => cases h
      | some kind =>
          obtain rfl := Except.ok.inj h
          exact hothers
  | .cut, found, others, envelope, h, hothers => by
      rw [collect] at h
      cases h
  | .cons key value tail, found, others, envelope, h, hothers => by
      rw [collect_cons, bind_eq_ok] at h
      obtain ⟨name, -, h⟩ := h
      split_ifs at h
      · cases found with
        | some kind => cases h
        | none =>
            obtain ⟨kind, -, h⟩ := bind_eq_ok.mp h
            exact fits_of_collect h hothers
      · obtain ⟨read, hread, h⟩ := bind_eq_ok.mp h
        refine fits_of_collect h (List.forall_mem_append.mpr ⟨hothers, ?_⟩)
        exact List.forall_mem_singleton.mpr (Value.fits_of_any hread)

theorem accepted_of_ofMembers {members : Members} {envelope : Envelope (List (String × Value))}
    {request : Request} (hcollect : collect levelsInside none [] members = .ok envelope)
    (h : ofMembers envelope = .ok request) : request.Accepted := by
  obtain ⟨filled, hfilled, h⟩ := bind_eq_ok.mp h
  refine accepted_of_ofFields (fun value hvalue => ?_) h
  rcases mem_of_distribute hfilled hvalue with hnone | ⟨member, hmember, rfl⟩
  · simp at hnone
  · exact fits_of_collect hcollect (List.forall_mem_nil _) member hmember

theorem accepted_of_ofItems {items : Items} {envelope : Envelope (List Value)}
    {request : Request} (hcollect : collectItems levelsInside items = .ok envelope)
    (h : ofItems envelope = .ok request) : request.Accepted := by
  cases items with
  | closed => cases hcollect
  | cut => cases hcollect
  | cons head tail =>
      simp only [collectItems, bind_eq_ok] at hcollect
      obtain ⟨kind, -, values, hvalues, hcollect⟩ := hcollect
      obtain rfl := Except.ok.inj hcollect
      rw [ofItems] at h
      dsimp only at h
      split_ifs at h
      refine accepted_of_ofFields (fun value hvalue => ?_) h
      obtain ⟨item, hitem, heq⟩ := List.mem_map.mp hvalue
      exact Option.some.inj heq ▸ Value.fits_of_anyItems hvalues item hitem

theorem accepted_of_decoder {node : Node} {request : Request}
    (h : decoder Json.maxDepth node = .ok request) : request.Accepted := by
  cases node with
  | object members =>
      obtain ⟨envelope, hcollect, h⟩ := bind_eq_ok.mp h
      exact accepted_of_ofMembers hcollect h
  | array items =>
      obtain ⟨envelope, hcollect, h⟩ := bind_eq_ok.mp h
      exact accepted_of_ofItems hcollect h
  | _ => cases h

theorem accepted_of_parse {body : String} {request : Request} (h : parse body = .ok request) :
    request.Accepted := by
  rw [parse, decode] at h
  obtain ⟨read, hread, h⟩ := bind_eq_ok.mp h
  split_ifs at h
  obtain rfl := Except.ok.inj h
  exact accepted_of_decoder hread

theorem collect_memberNodes {others fields : List (String × Value)}
    (hkeys : ∀ member ∈ fields, member.1 ≠ "type")
    (hvalues : ∀ member ∈ fields, any levels member.2.node = .ok member.2) :
    collect levels (some kind) others (Value.memberNodes fields) =
      .ok ⟨kind, others ++ fields⟩ := by
  induction fields generalizing others with
  | nil =>
      rw [List.append_nil]
      rfl
  | cons field fields ih =>
      obtain ⟨key, value⟩ := field
      obtain ⟨hkey, hkeys⟩ := List.forall_mem_cons.mp hkeys
      obtain ⟨hvalue, hvalues⟩ := List.forall_mem_cons.mp hvalues
      rw [Value.memberNodes, Value.memberNode, collect, content, ok_bind, if_neg hkey, hvalue,
        ok_bind, ih hkeys hvalues, ← List.append_cons]

theorem any_field {request : Request} (haccepted : request.Accepted)
    (hreals : ∀ x ∈ request.reals, ReadsBack x) :
    ∀ field ∈ request.fields, any levelsInside field.2.node = .ok field.2 := by
  cases request with
  | tick timeDelta =>
      cases timeDelta with
      | none => exact List.forall_mem_singleton.mpr rfl
      | some time => exact List.forall_mem_singleton.mpr (Value.any_node haccepted.fits hreals)
  | getMaps => exact List.forall_mem_nil _
  | getMap id => exact List.forall_mem_singleton.mpr rfl
  | listPlayers token => exact List.forall_mem_singleton.mpr rfl
  | getState token => exact List.forall_mem_singleton.mpr rfl
  | join mapId userName =>
      exact List.forall_mem_cons.mpr ⟨rfl, List.forall_mem_singleton.mpr rfl⟩
  | setDirection token direction =>
      exact List.forall_mem_cons.mpr ⟨rfl, List.forall_mem_singleton.mpr rfl⟩

/-- The written fields are those that the kind of the request has. -/
theorem ofMembers_fields {request : Request} (haccepted : request.Accepted) :
    ofMembers ⟨request.kind, request.fields⟩ = .ok request := by
  cases request with
  | tick timeDelta =>
      cases timeDelta with
      | none => rfl
      | some time =>
          have htime : timeOf time = some time := by
            cases time with
            | null => exact absurd rfl haccepted.ne_null
            | _ => exact congrArg some haccepted.sorted
          change Except.ok (tick (timeOf time)) = _
          rw [htime]
  | _ => rfl

theorem parse_toJson {request : Request} (haccepted : request.Accepted)
    (hreals : ∀ x ∈ request.reals, ReadsBack x) :
    parse request.toJson.text = .ok request := by
  have hkind : kindOf (Value.string request.kind.name).node = .ok request.kind := by
    cases request.kind <;> rfl
  have hkeys : ∀ field ∈ request.fields, field.1 ≠ "type" := by
    cases request <;> simp [fields]
  have hcollect : collect levelsInside none [] (Value.memberNodes
      (("type", .string request.kind.name) :: request.fields)) =
        .ok ⟨request.kind, request.fields⟩ := by
    rw [Value.memberNodes, Value.memberNode, collect, content, ok_bind, if_pos rfl, hkind, ok_bind,
      collect_memberNodes hkeys (any_field haccepted hreals), List.nil_append]
  rw [parse, decode_text]
  change collect levelsInside none [] (Value.memberNodes
      (("type", .string request.kind.name) :: request.fields)) >>= ofMembers = _
  rw [hcollect, ok_bind, ofMembers_fields haccepted]

/-! ## Spellings -/

def usualName (name : String) : String := if name = "direction" then "move" else name

/-- Two trees that are to be the same request: the second has the usual name of a
direction, or a time of `null` where the first has no time. -/
inductive Respelled : Node → Node → Prop where
  | usualNames (members : Members) :
    Respelled (.object members) (.object (members.mapKeys usualName))
  | nullTime (before : List (Option String × Node)) (after : Members)
    (hbefore : ∀ member ∈ before, member.1 ≠ some "timeDelta")
    (hafter : some "timeDelta" ∉ after.keys) :
    Respelled (.object (after.prepend before))
      (.object ((Members.cons (some "timeDelta") .null after).prepend before))
  | nullItem :
    Respelled (.array (.cons (.string (some "tick")) .closed))
      (.array (.cons (.string (some "tick")) (.cons .null .closed)))

def readMembers (levels : ℕ) (found : Option Kind) (others : List (String × Value))
    (members : Members) : Except Fault Request :=
  collect levels found others members >>= ofMembers

/-- Two objects that start with one value under like keys are read alike if what
follows is read alike. -/
theorem readMembers_cons_congr {found : Option Kind} {others others' : List (String × Value)}
    {key key' : Option String} {value : Node} {tail tail' : Members} (change : String → String)
    (hkey : key.map change = key') (htype : ∀ name, change name = "type" ↔ name = "type")
    (hkind : ∀ kind, readMembers levels (some kind) others tail =
      readMembers levels (some kind) others' tail')
    (hother : ∀ name ∈ key, ∀ read, readMembers levels found (others ++ [(name, read)]) tail =
      readMembers levels found (others' ++ [(change name, read)]) tail') :
    readMembers levels found others (.cons key value tail) =
      readMembers levels found others' (.cons key' value tail') := by
  subst hkey
  rw [readMembers, readMembers, collect_cons, collect_cons]
  cases key with
  | none => rfl
  | some name =>
      rw [Option.map_some, content, content, ok_bind, ok_bind]
      simp only [htype]
      split_ifs
      · cases found with
        | some kind => rfl
        | none =>
            dsimp only
            rw [bind_assoc, bind_assoc]
            exact bind_congr hkind
      · rw [bind_assoc, bind_assoc]
        exact bind_congr (hother name rfl)

theorem usualName_eq_type_iff (name : String) : usualName name = "type" ↔ name = "type" := by
  rw [usualName]
  split_ifs with hname
  · subst hname
    decide
  · rfl

theorem fieldOf?_usualName (kind : Kind) (name : String) :
    fieldOf? kind (usualName name) = fieldOf? kind name := by
  rw [usualName]
  split_ifs with hname
  · subst hname
    cases kind <;> rfl
  · rfl

theorem distribute_usualName (draft : List (Option Value)) (others : List (String × Value)) :
    distribute kind draft (others.map (Prod.map usualName id)) = distribute kind draft others := by
  induction others generalizing draft with
  | nil => rfl
  | cons member others ih =>
      obtain ⟨key, value⟩ := member
      simp only [List.map_cons, Prod.map_apply, id, distribute, fieldOf?_usualName, ih]

theorem readMembers_mapKeys : ∀ (members : Members) (found : Option Kind)
    (others : List (String × Value)),
    readMembers levels found others members =
      readMembers levels found (others.map (Prod.map usualName id)) (members.mapKeys usualName)
  | .closed, found, others => by
      cases found with
      | none => rfl
      | some kind =>
          change distribute kind _ _ >>= _ = distribute kind _ _ >>= _
          rw [distribute_usualName]
  | .cut, found, others => rfl
  | .cons key value tail, found, others => by
      refine readMembers_cons_congr usualName rfl usualName_eq_type_iff
        (fun kind => readMembers_mapKeys tail (some kind) others) fun name _ read => ?_
      rw [readMembers_mapKeys tail, List.map_append]
      rfl

/-- Members that are not the time of a tick. -/
def Timeless (others : List (String × Value)) : Prop := ∀ member ∈ others, member.1 ≠ "timeDelta"

theorem fieldOf?_tick {key : String} (h : key ≠ "timeDelta") : fieldOf? .tick key = none := by
  simpa [fieldOf?, fieldNames] using h

theorem distribute_tick {draft : List (Option Value)} {others : List (String × Value)}
    (h : Timeless others) : distribute .tick draft others = .ok draft := by
  induction others with
  | nil => rfl
  | cons member others ih =>
      obtain ⟨key, value⟩ := member
      obtain ⟨hkey, hothers⟩ := List.forall_mem_cons.mp h
      rw [distribute, fieldOf?_tick hkey]
      exact ih hothers

theorem distribute_nullTime (hkind : kind ≠ .tick) (draft : List (Option Value))
    (others more : List (String × Value)) :
    distribute kind draft (others ++ ("timeDelta", .null) :: more) =
      distribute kind draft (others ++ more) := by
  induction others generalizing draft with
  | nil =>
      have hfield : fieldOf? kind "timeDelta" = none := by
        cases kind <;> first | rfl | exact absurd rfl hkind
      rw [List.nil_append, distribute, hfield, List.nil_append]
  | cons member others ih =>
      obtain ⟨key, value⟩ := member
      simp only [List.cons_append, distribute, ih]

theorem distribute_tick_nullTime {others more : List (String × Value)} (hothers : Timeless others)
    (hmore : Timeless more) :
    distribute .tick [none] (others ++ ("timeDelta", .null) :: more) = .ok [some .null] := by
  induction others with
  | nil => exact distribute_tick hmore
  | cons member others ih =>
      obtain ⟨key, value⟩ := member
      obtain ⟨hkey, hothers⟩ := List.forall_mem_cons.mp hothers
      rw [List.cons_append, distribute, fieldOf?_tick hkey]
      exact ih hothers

/-- A time of `null` among the members is no time. -/
theorem ofMembers_nullTime (kind : Kind) {others more : List (String × Value)}
    (hothers : Timeless others) (hmore : Timeless more) :
    ofMembers ⟨kind, others ++ ("timeDelta", .null) :: more⟩ =
      ofMembers ⟨kind, others ++ more⟩ := by
  by_cases hkind : kind = .tick
  · subst hkind
    have hwithout : distribute .tick [none] (others ++ more) = .ok [none] :=
      distribute_tick (List.forall_mem_append.mpr ⟨hothers, hmore⟩)
    change distribute .tick [none] _ >>= _ = distribute .tick [none] _ >>= _
    rw [distribute_tick_nullTime hothers hmore, hwithout]
    rfl
  · rw [ofMembers, ofMembers]
    dsimp only
    rw [distribute_nullTime hkind]

theorem readMembers_nullTime : ∀ (members : Members) (found : Option Kind)
    (others more : List (String × Value)), some "timeDelta" ∉ members.keys → Timeless others →
      Timeless more →
        readMembers levels found (others ++ more) members =
          readMembers levels found (others ++ ("timeDelta", .null) :: more) members
  | .closed, found, others, more, hkeys, hothers, hmore => by
      cases found with
      | none => rfl
      | some kind => exact (ofMembers_nullTime kind hothers hmore).symm
  | .cut, found, others, more, hkeys, hothers, hmore => rfl
  | .cons key value tail, found, others, more, hkeys, hothers, hmore => by
      obtain ⟨hkey, htail⟩ := not_or.mp (List.mem_cons.not.mp hkeys)
      refine readMembers_cons_congr id (by simp) (fun _ => Iff.rfl)
        (fun kind => readMembers_nullTime tail (some kind) others more htail hothers hmore)
        fun name hname read => ?_
      have hread : Timeless (more ++ [(name, read)]) :=
        List.forall_mem_append.mpr ⟨hmore, List.forall_mem_singleton.mpr fun h =>
          hkey (by rw [hname, ← h])⟩
      rw [List.append_assoc, List.append_assoc]
      exact readMembers_nullTime tail found others _ htail hothers hread

/-- The same members in front of both leave two ways to go on the same. -/
theorem readMembers_prepend {longer shorter : Members}
    (h : ∀ found others, Timeless others →
      readMembers levels found others shorter = readMembers levels found others longer)
    {before : List (Option String × Node)}
    (hbefore : ∀ member ∈ before, member.1 ≠ some "timeDelta") :
    ∀ found others, Timeless others →
      readMembers levels found others (shorter.prepend before) =
        readMembers levels found others (longer.prepend before) := by
  induction before generalizing longer shorter with
  | nil => exact h
  | cons member before ih =>
      obtain ⟨key, value⟩ := member
      obtain ⟨hkey, hbefore⟩ := List.forall_mem_cons.mp hbefore
      refine ih (fun found others hothers => ?_) hbefore
      refine readMembers_cons_congr id (by simp) (fun _ => Iff.rfl)
        (fun kind => h (some kind) others hothers) fun name hname read => h found _ ?_
      exact List.forall_mem_append.mpr ⟨hothers, List.forall_mem_singleton.mpr fun h =>
        hkey (by rw [hname, ← h])⟩

/-- The same request is read from both spellings, or the same fault. -/
theorem decoder_eq_of_respelled {first second : Node} (h : Respelled first second) (levels : ℕ) :
    decoder levels first = decoder levels second := by
  cases levels with
  | zero => cases h <;> rfl
  | succ levels =>
      cases h with
      | usualNames members => exact readMembers_mapKeys members none []
      | nullTime before after hbefore hafter =>
          refine readMembers_prepend (fun found others hothers => ?_) hbefore none []
            (List.forall_mem_nil _)
          have h : readMembers levels found (others ++ []) after =
              readMembers levels found (others ++ [("timeDelta", .null)]) after :=
            readMembers_nullTime after found others [] hafter hothers
              (List.forall_mem_nil _)
          rw [List.append_nil] at h
          exact h
      | nullItem => rfl

/-- An accepted request comes back from the text written for it.  It has no time
rather than a time of `null`, its direction is written under the usual name, and
whatever is only spelled otherwise is the same request. -/
theorem parse_toJson_text {body : String} {request : Request} (haccepted : parse body = .ok request)
    (hreals : ∀ x ∈ request.reals, ReadsBack x) :
    parse request.toJson.text = .ok request ∧
      request ≠ .tick (some .null) ∧
      "direction" ∉ request.fields.map Prod.fst ∧
      ∀ other, (Document.read other.toList).ended = true →
        Respelled (Document.read body.toList).root (Document.read other.toList).root ∨
            Respelled (Document.read other.toList).root (Document.read body.toList).root →
          parse other = .ok request := by
  have hknown := accepted_of_parse haccepted
  refine ⟨parse_toJson hknown hreals, ?_, ?_, fun other hended hspelled => ?_⟩
  · rintro rfl
    exact hknown.ne_null rfl
  · cases request <;> simp [fields]
  · have hsame : decoder Json.maxDepth (Document.read body.toList).root =
        decoder Json.maxDepth (Document.read other.toList).root :=
      hspelled.elim (decoder_eq_of_respelled · _) (decoder_eq_of_respelled · _ |>.symm)
    rw [parse, decode] at haccepted ⊢
    obtain ⟨read, hread, h⟩ := bind_eq_ok.mp haccepted
    split_ifs at h
    obtain rfl := Except.ok.inj h
    rw [← hsame, hread, ok_bind, if_pos hended]
    rfl

/-- A tick whose time is no number, with the kind behind it and its members out of
order. -/
def untidyTick : Value :=
  .object [("timeDelta", .object [("b", .real 2.5), ("a", .array [.int (-7), .null])]),
    ("type", .string "tick")]

def tidyTime : Value := .object [("a", .array [.int (-7), .null]), ("b", .real 2.5)]

theorem parse_toJson_text_untidyTick :
    parse untidyTick.text = .ok (tick (some tidyTime)) ∧
      parse (tick (some tidyTime)).toJson.text = .ok (tick (some tidyTime)) := by
  have haccepted : parse untidyTick.text = .ok (tick (some tidyTime)) := by
    rw [parse, decode_text]
    with_unfolding_all rfl
  exact ⟨haccepted, (parse_toJson_text haccepted (by decide +kernel)).1⟩

end Request

end StreetDogs.Api
