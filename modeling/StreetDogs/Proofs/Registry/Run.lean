import StreetDogs.Game
import StreetDogs.Proofs.Motion.Contacts

/-!
# Runs of a game

Clients join, command and ask in any order, and the clock advances the game in
between.  A run is the list of these operations; its trace pairs every one with
the game it met.  What one operation preserves, a run preserves.
-/

namespace StreetDogs

inductive Operation where
  | join (mapId : MapId) (name : String)
  | setHeading (token : Token) (heading : Heading)
  | advance (time : Duration)
  | sessionOf (token : Token)
  | listPlayers (token : Token)
  | state (token : Token)
deriving DecidableEq, Repr

/-- The time by which an operation advances the game, if it does. -/
def Operation.time? : Operation → Option Duration
  | .advance time => some time
  | _ => none

namespace Game

def perform (game : Game) : Operation → Except GameError Game
  | .join mapId name => (game.join mapId name).map (·.2)
  | .setHeading token heading => game.setHeading token heading
  | .advance time => .ok (game.advance time).2
  | .sessionOf token => (game.sessionOf token).map fun _ => game
  | .listPlayers token => (game.listPlayers token).map fun _ => game
  | .state token => (game.state token).map fun _ => game

/-- The game that the next operation meets; an error leaves it as it is. -/
def next (game : Game) (operation : Operation) : Game :=
  match game.perform operation with
  | .ok next => next
  | .error _ => game

def after (game : Game) (operations : List Operation) : Game := operations.foldl next game

/-- The operations of a run, each with the game it met. -/
def trace (game : Game) : List Operation → List (Game × Operation)
  | [] => []
  | operation :: operations => (game, operation) :: trace (game.next operation) operations

theorem after_append (game : Game) (operations later : List Operation) :
    game.after (operations ++ later) = (game.after operations).after later := by
  rw [after, List.foldl_append, after, after]

theorem trace_snoc (game : Game) (operations : List Operation) (operation : Operation) :
    game.trace (operations ++ [operation]) =
      game.trace operations ++ [(game.after operations, operation)] := by
  induction operations generalizing game with
  | nil => rfl
  | cons head tail ih =>
      rw [List.cons_append, trace, ih, trace]
      rfl

/-- What holds at the start and is preserved by every operation holds after
every run. -/
theorem run_induction {p : List (Game × Operation) → Game → Prop} {game : Game} (hstart : p [] game)
    (hstep : ∀ trace current operation, p trace current →
      p (trace ++ [(current, operation)]) (current.next operation))
    (operations : List Operation) : p (game.trace operations) (game.after operations) := by
  induction operations using List.reverseRecOn with
  | nil => exact hstart
  | append_singleton operations operation ih =>
      rw [trace_snoc, after_append]
      exact hstep _ _ operation ih

theorem next_of_ok {game next : Game} {operation : Operation}
    (h : game.perform operation = .ok next) : game.next operation = next := by
  rw [Game.next, h]

theorem next_of_error {game : Game} {operation : Operation} {error : GameError}
    (h : game.perform operation = .error error) : game.next operation = game := by
  rw [next, h]

theorem perform_join_eq_ok {game next : Game} {mapId : MapId} {name : String} :
    game.perform (.join mapId name) = .ok next ↔
      ∃ joined, game.join mapId name = .ok (joined, next) := by
  rw [perform]
  cases game.join mapId name with
  | error error => exact iff_of_false nofun nofun
  | ok answer =>
      obtain ⟨joined, after⟩ := answer
      constructor
      · rintro h
        rw [← Except.ok.inj h]
        exact ⟨joined, rfl⟩
      · rintro ⟨_, h⟩
        obtain ⟨-, rfl⟩ := Prod.mk.inj (Except.ok.inj h)
        rfl

private theorem next_of_map {α : Type} {game : Game} {operation : Operation}
    {outcome : Except GameError α} (h : game.perform operation = outcome.map fun _ => game) :
    game.next operation = game := by
  rw [next, h]
  cases outcome <;> rfl

@[simp]
theorem next_sessionOf (game : Game) (token : Token) : game.next (.sessionOf token) = game :=
  next_of_map rfl

@[simp]
theorem next_listPlayers (game : Game) (token : Token) : game.next (.listPlayers token) = game :=
  next_of_map rfl

@[simp]
theorem next_state (game : Game) (token : Token) : game.next (.state token) = game :=
  next_of_map rfl

def playerAt? (game : Game) (place seat : ℕ) : Option Player :=
  game.sessions[place]?.bind fun session => session.players[seat]?

theorem playerAt?_eq_some {game : Game} {place seat : ℕ} {player : Player} :
    game.playerAt? place seat = some player ↔
      ∃ session, game.sessions[place]? = some session ∧ session.players[seat]? = some player := by
  rw [playerAt?, Option.bind_eq_some_iff]

def playerOn? (game : Game) (mapId : MapId) (name : String) : Option Player :=
  (game.sessionForMap? mapId).bind (·.playerNamed? name)

def onThreeRoads : Game where
  maps := [.threeRoads]
  mapPlaces := Directory.empty.insert "town" 0
  settings := {}
  words := ⟨fun _ => 0, 0⟩
  tokens := Token.counting 0

theorem new_onThreeRoads :
    Game.new [.threeRoads] {} ⟨fun _ => 0, 0⟩ (Token.counting 0) = .ok onThreeRoads := rfl

def shortRun : List Operation :=
  [.join "town" "Rex", .join "village" "Rex", .join "town" "Ada",
    .setHeading (Token.ofNumber 0) .east, .advance ⟨30000000000⟩, .join "town" "Rex",
    .state (Token.ofNumber 1)]

end Game

end StreetDogs
