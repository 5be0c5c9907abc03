import StreetDogs.Atlas.Load

/-!
# Responses

The bodies of successful answers.
-/

namespace StreetDogs.Api

open Json (Value)

structure MapSummary where
  id : MapId
  name : String
deriving DecidableEq, Repr

def MapSummary.ofMap (map : StreetMap) : MapSummary := ⟨map.id, map.name⟩

structure PlayerEntry where
  id : PlayerId
  name : String
deriving DecidableEq, Repr

def PlayerEntry.ofPlayer (player : Player) : PlayerEntry := ⟨player.id, player.name⟩

inductive Response where
  | maps (maps : List MapSummary)
  | map (record : MapRecord)
  | joined (joined : Joined)
  | players (players : List PlayerEntry)
  | state (dogs : List (PlayerId × DogSnapshot))
  | ok
deriving DecidableEq, Repr

namespace Response

def idToJson (id : PlayerId) : Value := .int id.toNat

/-- A vector as the array of its coordinates. -/
def vecToJson (v : Vec) : Value := .array [.real v.x, .real v.y]

def summaryToJson (summary : MapSummary) : Value :=
  .object [("id", .string summary.id), ("name", .string summary.name)]

def entryToJson (entry : PlayerEntry) : Value :=
  .object [("id", idToJson entry.id), ("name", .string entry.name)]

def dogToJson (dog : PlayerId × DogSnapshot) : Value :=
  .object [("id", idToJson dog.1), ("pos", vecToJson dog.2.position),
    ("speed", vecToJson dog.2.velocity), ("dir", .string dog.2.heading.shownCode)]

def toJson : Response → Value
  | maps summaries => .array (summaries.map summaryToJson)
  | map record => record.toJson
  | joined answer =>
    .object [("authToken", answer.token.toJson), ("playerId", idToJson answer.player)]
  | players entries => .array (entries.map entryToJson)
  | state dogs => .object [("players", .array (dogs.map dogToJson))]
  | ok => .object []

def text (response : Response) : String := response.toJson.text

end Response

end StreetDogs.Api
