import StreetDogs.Session
import StreetDogs.Directory
import StreetDogs.Random.ChaCha

/-!
# The game

The registry of all sessions: the maps, one session for every map that was
joined, the random words that place new dogs and the supply of player tokens.
Operations that fail return an error and no game, so they change nothing.
-/

namespace StreetDogs

/-- What a game is set up with. -/
structure GameSettings where
  /-- Speed of the dogs on maps that set none. -/
  defaultDogSpeed : Float := 1.0
  randomizeSpawn : Bool := false
  /-- The seed that places new dogs. -/
  spawnSeed : Option UInt64 := none
deriving DecidableEq, Repr

/-- The words that place new dogs: those of the seed, or `entropy` without one. -/
def GameSettings.spawnWords (settings : GameSettings) (entropy : Supply UInt64) :
    Supply UInt64 :=
  match settings.spawnSeed with
  | some seed => ChaCha.words seed
  | none => entropy

structure PlayerHandle where
  session : Nat
  player : PlayerId
deriving DecidableEq, Repr

structure Joined where
  token : Token
  player : PlayerId
deriving DecidableEq, Repr

/-- The outcome of a step: all players, and the dogs that could not move. -/
structure AdvanceReport where
  players : Nat := 0
  failures : Nat := 0
deriving DecidableEq, Repr

instance : Add AdvanceReport := ⟨fun a b => ⟨a.players + b.players, a.failures + b.failures⟩⟩

inductive GameError where
  | mapNotFound (map : MapId)
  | emptyName
  | unknownToken
  | invalidSession
  | invalidHeading (code : String)
  | badTimeDelta
  | playerAbsent
  | tokensExhausted
  | motion (cause : MotionError)
deriving DecidableEq, Repr

namespace GameError

def message : GameError → String
  | mapNotFound map => s!"Map {map} not found"
  | emptyName => "Player name is empty"
  | unknownToken => "Player token has not been found"
  | invalidSession => "Token resolves to no session"
  | invalidHeading code => s!"Invalid direction {Text.quoted code}"
  | badTimeDelta => "Failed to parse tick request"
  | playerAbsent => "Player missing from its session"
  | tokensExhausted => "No unused player token is left"
  | motion cause => s!"Navigation failed: {cause.message}"

/-- An error in the game itself, not in what was asked of it. -/
def isInternal : GameError → Bool
  | invalidSession | playerAbsent | motion _ => true
  | mapNotFound _ | emptyName | unknownToken | invalidHeading _ | badTimeDelta
  | tokensExhausted => false

/-- A movement error as an error of the game; an unknown code is the client's. -/
def ofMotion : MotionError → GameError
  | .invalidHeading code => invalidHeading code
  | cause => motion cause

end GameError

structure Game where
  maps : List StreetMap
  mapPlaces : Directory
  sessions : List Session := []
  sessionPlaces : Directory := .empty
  settings : GameSettings
  words : Supply UInt64
  tokens : Supply Token

namespace Game

/-- A game over maps with distinct identifiers, or the first identifier that
repeats an earlier one. -/
def new (maps : List StreetMap) (settings : GameSettings) (entropy : Supply UInt64)
    (tokens : Supply Token) : Except MapId Game :=
  (Directory.ofIds (maps.map (·.id))).map fun mapPlaces =>
    { maps, mapPlaces, settings, words := settings.spawnWords entropy, tokens }

def withTokens (game : Game) (tokens : Supply Token) : Game := { game with tokens }

def findMap? (game : Game) (id : MapId) : Option StreetMap :=
  (game.mapPlaces.place? id).bind fun place => game.maps[place]?

def sessionForMap? (game : Game) (id : MapId) : Option Session :=
  (game.sessionPlaces.place? id).bind fun place => game.sessions[place]?

def sessionCount (game : Game) : Nat := game.sessions.length

def playerCount (game : Game) : Nat := (game.sessions.map (·.playerCount)).foldl (· + ·) 0

/-- The owner of a token, by a search of every roster. -/
def findByToken? (game : Game) (token : Token) : Option PlayerHandle :=
  game.sessions.zipIdx.findSome? fun (session, place) =>
    (session.playerWithToken? token).map fun player => ⟨place, player.id⟩

/-- The session of the owner of a token. -/
def sessionOf (game : Game) (token : Token) : Except GameError Session :=
  match game.findByToken? token with
  | none => .error .unknownToken
  | some handle =>
    match game.sessions[handle.session]? with
    | none => .error .invalidSession
    | some session => .ok session

/-- The players who share a session with the owner of a token, in the order in
which they joined. -/
def listPlayers (game : Game) (token : Token) : Except GameError (List Player) :=
  (game.sessionOf token).map (·.players)

def state (game : Game) (token : Token) : Except GameError (List (PlayerId × DogSnapshot)) :=
  (game.listPlayers token).map fun players =>
    players.map fun player => (player.id, player.dog.snapshot)

/-- The game with a session for the map, and the place of that session. -/
def withSession (game : Game) (map : StreetMap) (mapPlace : Nat) : Game × Nat :=
  match game.sessionPlaces.place? map.id with
  | some place => (game, place)
  | none =>
    let place := game.sessions.length
    ({ game with
        sessions := game.sessions ++ [{ mapId := map.id, mapIndex := mapPlace }]
        sessionPlaces := game.sessionPlaces.insert map.id place },
      place)

/-- The first token of the supply that no player holds, and the supply after it.
All tokens have been offered after as many draws as there are tokens. -/
def unusedToken? (game : Game) : Option (Token × Supply Token) :=
  game.tokens.search (fun token => (game.findByToken? token).isNone) Token.count

/-- Joins a map under a name.  A name that is known on the map gets its token
and id again. -/
def join (game : Game) (mapId : MapId) (name : String) : Except GameError (Joined × Game) :=
  if name.isEmpty then
    .error .emptyName
  else
    match game.mapPlaces.place? mapId with
    | none => .error (.mapNotFound mapId)
    | some mapPlace =>
      match game.maps[mapPlace]? with
      | none => .error (.mapNotFound mapId)
      | some map =>
        let (game, place) := game.withSession map mapPlace
        match game.sessions[place]? with
        | none => .error .invalidSession
        | some session =>
          match session.playerNamed? name with
          | some player => .ok (⟨player.token, player.id⟩, game)
          | none =>
            match game.unusedToken? with
            | none => .error .tokensExhausted
            | some (token, tokens) =>
              let (player, session, words) :=
                session.join name map game.settings.randomizeSpawn game.words token
              .ok (⟨player.token, player.id⟩,
                { game with sessions := game.sessions.set place session, words, tokens })

def advanceSession (maps : List StreetMap) (time : Duration) (session : Session) :
    AdvanceReport × Session :=
  match maps[session.mapIndex]? with
  | none => (⟨session.playerCount, 0⟩, session)
  | some map =>
    let (failures, advanced) := session.advance map time
    (⟨advanced.playerCount, failures⟩, advanced)

def advance (game : Game) (time : Duration) : AdvanceReport × Game :=
  let results := game.sessions.map (advanceSession game.maps time)
  ((results.map (·.1)).foldl (· + ·) {}, { game with sessions := results.map (·.2) })

/-- The speed of the dogs of a session: that of its map if it sets one above
zero, otherwise the default. -/
def speedIn (game : Game) (session : Session) : Float :=
  match (game.maps[session.mapIndex]?).bind (·.dogSpeed) with
  | some speed => if 0.0 < speed then speed else game.settings.defaultDogSpeed
  | none => game.settings.defaultDogSpeed

def setHeading (game : Game) (token : Token) (heading : Heading) : Except GameError Game :=
  match game.findByToken? token with
  | none => .error .unknownToken
  | some handle =>
    match game.sessions[handle.session]? with
    | none => .error .invalidSession
    | some session =>
      match session.player? handle.player with
      | none => .error .playerAbsent
      | some _ =>
        let steered := session.updateDog handle.player (·.steer heading (game.speedIn session))
        .ok { game with sessions := game.sessions.set handle.session steered }

end Game

end StreetDogs
