import StreetDogs.Json.Node
import StreetDogs.Json.Number
import StreetDogs.Json.Value
import StreetDogs.Json.Fault

/-!
# Decoders

A decoder turns a tree into a value of a type, or reports the first fault in
text order.  It is given the number of levels of nesting that are left.  Values
nobody asks for are passed over, and then only their form counts.
-/

namespace StreetDogs.Json

/-- Decodes a tree under a limit on further nesting. -/
abbrev Decoder (α : Type) := Nat → Node → Except Fault α

/-- The levels of nesting a document may have. -/
def maxDepth : Nat := 127

namespace Decoder

variable {α β σ : Type}

def decode (decoder : Decoder α) (text : String) : Except Fault α := do
  let document := Document.read text.toList
  let value ← decoder maxDepth document.root
  if document.ended then return value else throw .trailingText

def descend (levels : Nat) (inside : Nat → Except Fault α) : Except Fault α :=
  match levels with
  | 0 => .error .tooDeep
  | levels + 1 => inside levels

/-- The fault of a value of another type than expected. -/
def refuse : Node → Fault
  | .broken => .malformed
  | _ => .unexpectedType

/-! ## Plain values -/

def content : Option String → Except Fault String
  | some content => .ok content
  | none => .error .loneSurrogate

def string : Decoder String
  | _, .string text => content text
  | _, node => .error (refuse node)

def real : Decoder Float
  | _, .number numeral =>
    match Number.ofNumeral? numeral with
    | some number => .ok number.toReal
    | none => .error .numberOutOfRange
  | _, node => .error (refuse node)

def int32 : Decoder Int32
  | _, .number numeral =>
    match Number.ofNumeral? numeral with
    | some (.integer n) =>
      if Int32.minValue.toInt ≤ n ∧ n ≤ Int32.maxValue.toInt then .ok (Int32.ofInt n)
      else .error .numberOutOfRange
    | some (.real _) => .error .unexpectedType
    | none => .error .numberOutOfRange
  | _, node => .error (refuse node)

def nullable (decoder : Decoder α) : Decoder (Option α)
  | _, .null => .ok none
  | levels, node => (decoder levels node).map some

/-! ## Arrays -/

def items (decoder : Decoder α) (levels : Nat) : Items → Except Fault (List α)
  | .closed => .ok []
  | .cut => .error .malformed
  | .cons head tail => do
    let first ← decoder levels head
    let more ← items decoder levels tail
    return first :: more

def list (decoder : Decoder α) : Decoder (List α)
  | levels, .array values => descend levels fun levels => items decoder levels values
  | _, node => .error (refuse node)

/-- The next item of an array in place of an object. -/
def field (decoder : Decoder α) (levels : Nat) : Items → Except Fault (α × Items)
  | .closed => .error .wrongLength
  | .cut => .error .malformed
  | .cons head tail => do
    let value ← decoder levels head
    return (value, tail)

/-- The next item of an array in place of an object, or a default behind its
last item. -/
def fieldOr (default : α) (decoder : Decoder α) (levels : Nat) :
    Items → Except Fault (α × Items)
  | .closed => .ok (default, .closed)
  | values => field decoder levels values

/-- No items are left. -/
def lastField : Items → Except Fault Unit
  | .closed => .ok ()
  | .cut => .error .malformed
  | .cons _ _ => .error .wrongLength

/-! ## Objects -/

/-- Takes the members of an object into a draft.  `known` decodes the members it
knows by their keys; the others are passed over. -/
def members (known : String → σ → Option (Decoder σ)) (levels : Nat) (draft : σ) :
    Members → Except Fault σ
  | .closed => .ok draft
  | .cut => .error .malformed
  | .cons key value tail => do
    let key ← content key
    match known key draft with
    | some decoder =>
      let draft ← decoder levels value
      members known levels draft tail
    | none =>
      if value.isWhole then members known levels draft tail else throw .malformed

/-- A member that may occur once: its value is stored in the draft unless there
already is one. -/
def once (name : String) (present : Option α) (decoder : Decoder α) (store : α → σ) :
    Decoder σ := fun levels node =>
  match present with
  | some _ => .error (.duplicateField name)
  | none => (decoder levels node).map store

def required (name : String) : Option α → Except Fault α
  | some value => .ok value
  | none => .error (.missingField name)

/-- An object, or an array of its fields. -/
def record (ofMembers : Nat → Members → Except Fault α)
    (ofItems : Nat → Items → Except Fault α) : Decoder α
  | levels, .object values => descend levels fun levels => ofMembers levels values
  | levels, .array values => descend levels fun levels => ofItems levels values
  | _, node => .error (refuse node)

/-! ## Variants -/

def variant (name : α → String) (all : List α) (text : String) : Except Fault α :=
  match all.find? (name · == text) with
  | some value => .ok value
  | none => .error (.unknownVariant text (all.map name))

/-- A variant without fields: its name, or an object with the name as its only
key and `null` as the value. -/
def unitVariant (name : α → String) (all : List α) : Decoder α
  | _, .string text => do variant name all (← content text)
  | levels, .object values =>
    descend levels fun _ =>
      match values with
      | .closed => .error .unexpectedType
      | .cut => .error .malformed
      | .cons key value tail => do
        let chosen ← variant name all (← content key)
        match value, tail with
        | .null, .closed => return chosen
        | _, _ => throw .unexpectedType
  | _, node => .error (refuse node)

/-! ## Any value -/

mutual

/-- Any value, with all its numbers and strings in range. -/
def any (levels : Nat) : Node → Except Fault Value
  | .null => .ok .null
  | .bool value => .ok (.bool value)
  | .number numeral =>
    match Number.ofNumeral? numeral with
    | some number => .ok (.number number)
    | none => .error .numberOutOfRange
  | .string text => (content text).map .string
  | .array values =>
    match levels with
    | 0 => .error .tooDeep
    | levels + 1 => (anyItems levels values).map .array
  | .object values =>
    match levels with
    | 0 => .error .tooDeep
    | levels + 1 => (anyMembers levels values).map .object
  | .broken => .error .malformed

def anyItems (levels : Nat) : Items → Except Fault (List Value)
  | .closed => .ok []
  | .cut => .error .malformed
  | .cons head tail => do
    let first ← any levels head
    let more ← anyItems levels tail
    return first :: more

def anyMembers (levels : Nat) : Members → Except Fault (List (String × Value))
  | .closed => .ok []
  | .cut => .error .malformed
  | .cons key value tail => do
    let key ← content key
    let first ← any levels value
    let more ← anyMembers levels tail
    return (key, first) :: more

end

end Decoder

end StreetDogs.Json
