import StreetDogs.Proofs.Json.Document
import StreetDogs.Proofs.Json.Number

/-!
# Decoding written values

Each decoder of a plain value takes back what was written for it.  The members
of an object are decoded one after the other into a draft; a member that was
left out leaves its part of the draft empty.
-/

namespace StreetDogs.Json.Decoder

variable {α β σ : Type} {levels : ℕ}

/-- A chain succeeds when both its parts do. -/
theorem bind_eq_ok {ε : Type} {outcome : Except ε α} {next : α → Except ε β} {result : β} :
    outcome >>= next = .ok result ↔ ∃ value, outcome = .ok value ∧ next value = .ok result := by
  constructor
  · intro h
    cases outcome with
    | error fault => cases h
    | ok value => exact ⟨value, rfl, h⟩
  · rintro ⟨value, rfl, h⟩
    exact h

theorem map_eq_ok {outcome : Except Fault α} {change : α → β} {result : β} :
    outcome.map change = .ok result ↔ ∃ value, outcome = .ok value ∧ change value = result := by
  constructor
  · intro h
    cases outcome with
    | error fault => cases h
    | ok value => exact ⟨value, rfl, Except.ok.inj h⟩
  · rintro ⟨value, rfl, rfl⟩
    rfl

@[simp]
theorem ok_bind (value : α) (next : α → Except Fault β) : Except.ok value >>= next = next value :=
  rfl

@[simp]
theorem ok_map (value : α) (change : α → β) :
    (Except.ok value : Except Fault α).map change = .ok (change value) := rfl

@[simp]
theorem pure_eq_ok (value : α) : (pure value : Except Fault α) = .ok value := rfl

theorem content_eq_ok_iff {text : Option String} {found : String} :
    content text = .ok found ↔ text = some found := by
  cases text with
  | none => exact iff_of_false nofun nofun
  | some text => rw [content, Except.ok.injEq, Option.some_inj]

open Value (memberNodes)

@[simp]
theorem string_node (text : String) : string levels (Value.string text).node = .ok text := rfl

/-- A number in range is written as a number. -/
theorem ofNumber_ne_null {n : Number} (hrange : n.InRange) : Node.ofNumber n ≠ .null := by
  intro hnull
  rw [Node.ofNumber] at hnull
  cases n with
  | integer n => cases hnull
  | real x =>
      have hfinite : x.isFinite = true := hrange
      rw [Number.numeral?, if_pos hfinite] at hnull
      cases hnull

/-- A value that is not written as `null` is read as a value. -/
theorem nullable_node {decoder : Decoder α} {node : Node} {value : α}
    (h : decoder levels node = .ok value) (hnull : node ≠ .null) :
    nullable decoder levels node = .ok (some value) := by
  cases node with
  | null => exact absurd rfl hnull
  | _ =>
      rw [nullable, h, ok_map]
      exact hnull

theorem inRange_toInt (n : Int32) : (Number.integer n.toInt).InRange := by
  have hlow := n.le_toInt
  have hhigh := n.toInt_lt
  constructor <;> omega

/-- An integer of 32 bits is read as it was written. -/
@[simp]
theorem int32_node (n : Int32) : int32 levels (Value.int n.toInt).node = .ok n := by
  obtain ⟨numeral, hnumeral, hread⟩ := Number.ofNumeral?_integer (inRange_toInt n)
  have hbounds : Int32.minValue.toInt ≤ n.toInt ∧ n.toInt ≤ Int32.maxValue.toInt := by
    have hmin : Int32.minValue.toInt = -2 ^ 31 := rfl
    have hmax : Int32.maxValue.toInt = 2 ^ 31 - 1 := rfl
    have hlow := n.le_toInt
    have hhigh := n.toInt_lt
    omega
  rw [Value.int, Value.node, Node.ofNumber, hnumeral]
  simp only [int32, hread, if_pos hbounds, Int32.ofInt_toInt]

@[simp]
theorem nullable_int32_node (n : Int32) :
    nullable int32 levels (Value.int n.toInt).node = .ok (some n) :=
  nullable_node (int32_node n) (ofNumber_ne_null (inRange_toInt n))

theorem real_node {x : Float} (h : ReadsBack x) : real levels (Value.real x).node = .ok x := by
  obtain ⟨numeral, hnumeral, hread⟩ := Number.ofNumeral?_real h.isFinite h
  rw [Value.real, Value.node, Node.ofNumber, hnumeral]
  simp only [real, hread, Number.toReal]

theorem nullable_real_node (levels : ℕ) {x : Float} (h : ReadsBack x) :
    nullable real levels (Value.real x).node = .ok (some x) :=
  nullable_node (real_node h) (ofNumber_ne_null (n := .real x) h.isFinite)

theorem list_node (levels : ℕ) {decoder : Decoder α} {toJson : α → Value} {as : List α}
    (h : ∀ a ∈ as, decoder levels (toJson a).node = .ok a) :
    list decoder (levels + 1) (Value.array (as.map toJson)).node = .ok as := by
  change items decoder levels (Value.itemNodes (as.map toJson)) = .ok as
  induction as with
  | nil => rfl
  | cons a as ih =>
      obtain ⟨ha, has⟩ := List.forall_mem_cons.mp h
      rw [List.map_cons, Value.itemNodes, items, ha, ih has]
      rfl

section Objects

variable {ofMembers : ℕ → Members → Except Fault α} {ofItems : ℕ → Items → Except Fault α}
  {known : String → σ → Option (Decoder σ)} {draft : σ}

@[simp]
theorem record_node (fields : List (String × Value)) :
    record ofMembers ofItems (levels + 1) (Value.object fields).node =
      ofMembers levels (memberNodes fields) := rfl

@[simp]
theorem members_nil : members known levels draft (memberNodes []) = .ok draft := rfl

/-- A known member is decoded into the draft, and the others follow. -/
theorem members_cons (key : String) (value : Value) (fields : List (String × Value)) :
    members known levels draft (memberNodes ((key, value) :: fields)) =
      match known key draft with
      | some decoder => decoder levels value.node >>= fun next =>
          members known levels next (memberNodes fields)
      | none =>
        if value.node.isWhole then members known levels draft (memberNodes fields)
        else throw .malformed := by
  rw [memberNodes, Value.memberNode, members]
  rfl

@[simp]
theorem once_none (name : String) (decoder : Decoder α) (store : α → σ) (node : Node) :
    once name none decoder store levels node = (decoder levels node).map store := rfl

@[simp]
theorem required_some (name : String) (value : α) : required name (some value) = .ok value := rfl

end Objects

end StreetDogs.Json.Decoder
