import StreetDogs.Json.Decoder
import StreetDogs.Game

/-!
# Requests

What clients ask for.  A request is an object whose member `type` names its
kind, or an array that starts with the kind.  The kind is checked where it
stands; the other members are collected and checked when all have been read.
-/

namespace StreetDogs.Api

open Json (Value Fault Decoder Items Members Node)

inductive Request where
  | getMaps
  | getMap (id : String)
  | join (mapId userName : String)
  | listPlayers (token : String)
  | getState (token : String)
  | setDirection (token direction : String)
  /-- The time to advance by is kept as any value, so that a wrong one is told
  apart from a malformed request. -/
  | tick (timeDelta : Option Value)

inductive Kind where
  | getMaps
  | getMap
  | join
  | listPlayers
  | getState
  | setDirection
  | tick
deriving DecidableEq, Repr

namespace Kind

def name : Kind → String
  | getMaps => "getMaps"
  | getMap => "getMap"
  | join => "join"
  | listPlayers => "listPlayers"
  | getState => "getState"
  | setDirection => "setDirection"
  | tick => "tick"

/-- All kinds, in the order in which faults list them. -/
def all : List Kind := [getMaps, getMap, join, listPlayers, getState, setDirection, tick]

end Kind

namespace Request

def kind : Request → Kind
  | getMaps => .getMaps
  | getMap _ => .getMap
  | join _ _ => .join
  | listPlayers _ => .listPlayers
  | getState _ => .getState
  | setDirection _ _ => .setDirection
  | tick _ => .tick

/-! ## Writing -/

def fields : Request → List (String × Value)
  | getMaps => []
  | getMap id => [("id", .string id)]
  | join mapId userName => [("mapId", .string mapId), ("userName", .string userName)]
  | listPlayers token => [("token", .string token)]
  | getState token => [("token", .string token)]
  | setDirection token direction => [("token", .string token), ("move", .string direction)]
  | tick timeDelta => [("timeDelta", timeDelta.getD .null)]

def toJson (request : Request) : Value :=
  .object (("type", .string request.kind.name) :: request.fields)

/-! ## Reading -/

/-- The kind of a request and everything else it holds. -/
structure Envelope (α : Type) where
  kind : Kind
  content : α

def kindOf : Node → Except Fault Kind
  | .string text => do Decoder.variant Kind.name Kind.all (← Decoder.content text)
  | node => .error (Decoder.refuse node)

/-- Collects the members of a request, taking the kind out of them. -/
def collect (levels : Nat) (kind : Option Kind) (others : List (String × Value)) :
    Members → Except Fault (Envelope (List (String × Value)))
  | .closed =>
    match kind with
    | some kind => .ok ⟨kind, others⟩
    | none => .error (.missingField "type")
  | .cut => .error .malformed
  | .cons key value tail => do
    let key ← Decoder.content key
    if key = "type" then
      match kind with
      | some _ => throw (.duplicateField "type")
      | none => collect levels (some (← kindOf value)) others tail
    else
      let value ← Decoder.any levels value
      collect levels kind (others ++ [(key, value)]) tail

def collectItems (levels : Nat) : Items → Except Fault (Envelope (List Value))
  | .closed => .error (.missingField "type")
  | .cut => .error .malformed
  | .cons head tail => do
    let kind ← kindOf head
    let items ← Decoder.anyItems levels tail
    return ⟨kind, items⟩

def stringOf : Value → Except Fault String
  | .string content => .ok content
  | _ => .error .unexpectedType

/-- The time of a tick; `null` is no time. -/
def timeOf : Value → Option Value
  | .null => none
  | value => some value.sorted

/-- The fields of a kind, each with the names it may have, the usual one first. -/
def fieldNames : Kind → List (List String)
  | .getMaps => []
  | .getMap => [["id"]]
  | .join => [["mapId"], ["userName"]]
  | .listPlayers => [["token"]]
  | .getState => [["token"]]
  | .setDirection => [["token"], ["move", "direction"]]
  | .tick => [["timeDelta"]]

/-- The field that a member belongs to, by its place among the fields. -/
def fieldOf? (kind : Kind) (key : String) : Option Nat :=
  (fieldNames kind).findIdx? (·.contains key)

def fieldName (kind : Kind) (field : Nat) : String :=
  (((fieldNames kind)[field]?).bind (·.head?)).getD ""

/-- A value has the type that the fields of a kind have: any for the time of a
tick, and a string otherwise. -/
def checkField (kind : Kind) (value : Value) : Except Fault Unit :=
  match kind with
  | .tick => .ok ()
  | _ => (stringOf value).map fun _ => ()

/-- Distributes members over the fields of a kind, passing over unknown ones. -/
def distribute (kind : Kind) (draft : List (Option Value)) :
    List (String × Value) → Except Fault (List (Option Value))
  | [] => .ok draft
  | (key, value) :: others =>
    match fieldOf? kind key with
    | none => distribute kind draft others
    | some field =>
      match (draft[field]?).join with
      | some _ => .error (.duplicateField (fieldName kind field))
      | none => do
        checkField kind value
        distribute kind (draft.set field (some value)) others

def stringField (kind : Kind) (draft : List (Option Value)) (field : Nat) :
    Except Fault String :=
  match (draft[field]?).join with
  | some value => stringOf value
  | none => .error (.missingField (fieldName kind field))

def ofFields (kind : Kind) (draft : List (Option Value)) : Except Fault Request :=
  match kind with
  | .getMaps => .ok getMaps
  | .getMap => return getMap (← stringField kind draft 0)
  | .join => return join (← stringField kind draft 0) (← stringField kind draft 1)
  | .listPlayers => return listPlayers (← stringField kind draft 0)
  | .getState => return getState (← stringField kind draft 0)
  | .setDirection =>
    return setDirection (← stringField kind draft 0) (← stringField kind draft 1)
  | .tick => return tick (((draft[0]?).join).bind timeOf)

def ofMembers (envelope : Envelope (List (String × Value))) : Except Fault Request := do
  let draft := (fieldNames envelope.kind).map fun _ => none
  ofFields envelope.kind (← distribute envelope.kind draft envelope.content)

/-- The request with the given fields in order.  Only the time of a tick may be
left off. -/
def ofItems (envelope : Envelope (List Value)) : Except Fault Request :=
  let count := (fieldNames envelope.kind).length
  if envelope.content.length = count ∨ (envelope.kind = .tick ∧ envelope.content = []) then
    ofFields envelope.kind (envelope.content.map some)
  else
    .error .wrongLength

def decoder : Decoder Request :=
  Decoder.record
    (fun levels values => do ofMembers (← collect levels none [] values))
    (fun levels values => do ofItems (← collectItems levels values))

def parse (text : String) : Except Fault Request := decoder.decode text

/-! ## Times -/

/-- The time of a tick: a whole number of milliseconds. -/
def timeDelta (value : Option Value) : Except GameError Duration :=
  match value.bind (·.natural?) with
  | some milliseconds => .ok (.ofMilliseconds milliseconds)
  | none => .error .badTimeDelta

end Request

end StreetDogs.Api
