import StreetDogs.Game.Update
import StreetDogs.Api.Request
import StreetDogs.Api.Response
import StreetDogs.Api.Error
import StreetDogs.Metrics
import StreetDogs.Settings

/-!
# The server

Answers requests on a game, which they change in place, and keeps the metrics.
Every request is counted once, and so is every refusal.  A step of the game has
two parts: the game is advanced, and its report is recorded.
-/

namespace StreetDogs

open Api (Request Response ApiError)

structure Server where
  game : Game
  mode : TickMode
  metrics : Metrics := {}

namespace Server

/-- Advances the game; the report is still to be recorded. -/
def advanceGame (server : Server) (time : Duration) : AdvanceReport × Server :=
  let (report, game) := server.game.advance time
  (report, { server with game })

/-- Records the report of a step that took the time `elapsed`. -/
def recordReport (server : Server) (elapsed : Duration) (report : AdvanceReport) : Server :=
  { server with metrics := server.metrics.recordAdvance elapsed report }

/-- Advances the game and records the report of a step that took the time
`elapsed`. -/
def advance (server : Server) (time elapsed : Duration) : Server :=
  let (report, server) := server.advanceGame time
  server.recordReport elapsed report

/-- A computation that changes a server in place.  An error ends it and leaves
the server as it is by then. -/
abbrev Handling := EStateM ApiError Server

def updateGame {α : Type} (update : Update α) : Handling α := fun server =>
  match update server.game with
  | .ok result game => .ok result { server with game }
  | .error cause game => .error (.game cause) { server with game }

def readToken (raw : String) : Handling Token := do
  match Api.parseToken raw with
  | .ok token => return token
  | .error error => throw error

def query {α : Type} (ask : Game → Except GameError α) : Handling α := do
  match ask (← get).game with
  | .ok result => return result
  | .error cause => throw (.game cause)

/-- Joins a player and updates the population. -/
def join (mapId : MapId) (name : String) : Handling Joined := do
  let joined ← updateGame (.join mapId name)
  modify fun server =>
    { server with
      metrics := server.metrics.recordJoin.setPopulation server.game.sessionCount
        server.game.playerCount }
  return joined

/-- Advances the game by the time a client sent, unless a clock does. -/
def tick (elapsed : Duration) (timeDelta : Option Json.Value) : Handling Unit := do
  if (← get).mode.isPeriodic then
    throw .tickNotPermitted
  match Request.timeDelta timeDelta with
  | .error cause => throw (.game cause)
  | .ok time =>
    let report ← updateGame (.advance time)
    modify (·.recordReport elapsed report)

/-- Answers a request; `elapsed` is the time that a step of the game takes. -/
def dispatch (elapsed : Duration) : Request → Handling Response
  | .getMaps => return .maps ((← get).game.maps.map .ofMap)
  | .getMap id => do
    match (← get).game.findMap? id with
    | some map => return .map (.ofMap map)
    | none => throw (.game (.mapNotFound id))
  | .join mapId userName => return .joined (← join mapId userName)
  | .listPlayers token => do
    let token ← readToken token
    return .players ((← query fun game => game.listPlayers token).map .ofPlayer)
  | .getState token => do
    let token ← readToken token
    return .state (← query fun game => game.state token)
  | .setDirection token direction => do
    let token ← readToken token
    match Heading.ofCode direction with
    | .error cause => throw (.game (.ofMotion cause))
    | .ok heading =>
      updateGame (.setHeading token heading)
      return .ok
  | .tick timeDelta => do
    tick elapsed timeDelta
    return .ok

def countRequest (server : Server) : Server :=
  { server with metrics := server.metrics.recordRequest }

def countError (server : Server) (error : ApiError) : Server :=
  { server with metrics := server.metrics.recordRequestError error.isInternal }

def handle (server : Server) (elapsed : Duration) (request : Request) :
    Except ApiError Response × Server :=
  match dispatch elapsed request server.countRequest with
  | .ok response server => (.ok response, server)
  | .error error server => (.error error, server.countError error)

def handleText (server : Server) (elapsed : Duration) (body : String) :
    Except ApiError Response × Server :=
  match Request.parse body with
  | .ok request => server.handle elapsed request
  | .error fault =>
    let error := .badRequest fault
    (.error error, server.countRequest.countError error)

end Server

end StreetDogs
