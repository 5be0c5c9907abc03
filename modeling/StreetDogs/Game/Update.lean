import StreetDogs.Game

/-!
# Updates in place

A server keeps one game and changes it step by step.  A step that fails ends
the operation, but what the steps before it have changed is not taken back.
-/

namespace StreetDogs

/-- A computation that changes a game in place.  An error ends it and leaves
the game as it is by then. -/
abbrev Update := EStateM GameError Game

namespace Update

def findMap (mapId : MapId) : Update (StreetMap × Nat) := fun game =>
  match game.mapPlaces.place? mapId with
  | none => .error (.mapNotFound mapId) game
  | some mapPlace =>
    match game.maps[mapPlace]? with
    | none => .error (.mapNotFound mapId) game
    | some map => .ok (map, mapPlace) game

/-- The place of the session of a map, which is opened if there is none. -/
def openSession (map : StreetMap) (mapPlace : Nat) : Update Nat := fun game =>
  let (game, place) := game.withSession map mapPlace
  .ok place game

def sessionAt (place : Nat) : Update Session := fun game =>
  match game.sessions[place]? with
  | none => .error .invalidSession game
  | some session => .ok session game

def drawToken : Update Token := fun game =>
  match game.unusedToken? with
  | none => .error .tokensExhausted game
  | some (token, tokens) => .ok token { game with tokens }

/-- Adds a new player to the session at a place.  A dog cannot be placed on a
map without roads. -/
def seatPlayer (map : StreetMap) (place : Nat) (session : Session) (name : String)
    (token : Token) : Update Player := fun game =>
  if map.roads.isEmpty then
    .error (.motion (.unknownRoad 0)) game
  else
    let (player, session, words) :=
      session.join name map game.settings.randomizeSpawn game.words token
    .ok player { game with sessions := game.sessions.set place session, words }

/-- Joins a map under a name: the session is opened, then a token is drawn,
then the dog is placed. -/
def join (mapId : MapId) (name : String) : Update Joined := do
  if name.isEmpty then
    throw .emptyName
  else
    let (map, mapPlace) ← findMap mapId
    let place ← openSession map mapPlace
    let session ← sessionAt place
    match session.playerNamed? name with
    | some player => return ⟨player.token, player.id⟩
    | none =>
      let token ← drawToken
      let player ← seatPlayer map place session name token
      return ⟨player.token, player.id⟩

/-- Commands the dog of the owner of a token.  All that can fail comes before
the only change. -/
def setHeading (token : Token) (heading : Heading) : Update Unit := fun game =>
  match game.setHeading token heading with
  | .error cause => .error cause game
  | .ok game => .ok () game

def advance (time : Duration) : Update AdvanceReport := fun game =>
  let (report, game) := game.advance time
  .ok report game

end Update

end StreetDogs
