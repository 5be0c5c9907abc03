import StreetDogs.Game
import StreetDogs.Json.Fault

/-!
# Errors told to clients

Every refused request is answered with an error that has a stable code and a
message.
-/

namespace StreetDogs.Api

inductive ApiError where
  | game (cause : GameError)
  | invalidToken
  | tickNotPermitted
  | badRequest (fault : Json.Fault)
deriving DecidableEq, Repr

namespace ApiError

def message : ApiError → String
  | game cause => cause.message
  | invalidToken => "Authorization header is missing or malformed"
  | tickNotPermitted => "Ticks are driven by the server clock"
  | badRequest fault => s!"Bad request: {fault.message}"

/-- The code clients can rely on. -/
def code : ApiError → String
  | game (.mapNotFound _) => "mapNotFound"
  | game .emptyName | game (.invalidHeading _) | game .badTimeDelta => "invalidArgument"
  | game .unknownToken => "unknownToken"
  | game .invalidSession | game .playerAbsent | game (.motion _) => "internalError"
  | game .tokensExhausted => "unavailable"
  | invalidToken => "invalidToken"
  | tickNotPermitted | badRequest _ => "badRequest"

/-- An error in the game itself, not in the request. -/
def isInternal : ApiError → Bool
  | game cause => cause.isInternal
  | invalidToken | tickNotPermitted | badRequest _ => false

end ApiError

def parseToken (raw : String) : Except ApiError Token :=
  match Token.ofClient? raw with
  | some token => .ok token
  | none => .error .invalidToken

end StreetDogs.Api
