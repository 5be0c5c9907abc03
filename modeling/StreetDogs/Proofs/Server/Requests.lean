import StreetDogs.Proofs.Server.Outcomes
import StreetDogs.Proofs.Registry.InPlace

/-!
# Requests in place

A server handles a request in steps that change its game in place.  In a
consistent game they come to the outcome of the request: the game is changed as
a whole, or not at all.
-/

namespace StreetDogs

open Api (Request Response ApiError)

namespace Server

variable {server next left : Server} {elapsed : Duration}

/-- A result that has an outcome: it gives the answer and the game after it, and
an error comes with the game as it was, unless no token was left. -/
def Settles (game : Game) (outcome : Except ApiError (Response × Game)) :
    EStateM.Result ApiError Server Response → Prop
  | .ok response server => outcome = .ok (response, server.game)
  | .error error server =>
    outcome = .error error ∧ (error = .game .tokensExhausted ∨ server.game = game)

theorem readToken_eq (raw : String) (server : Server) :
    readToken raw server =
      match Token.ofClient? raw with
      | some token => .ok token server
      | none => .error .invalidToken server := by
  rw [readToken, Api.parseToken]
  cases Token.ofClient? raw <;> rfl

theorem query_eq {α : Type} (ask : Game → Except GameError α) (server : Server) :
    query ask server =
      match ask server.game with
      | .ok result => .ok result server
      | .error cause => .error (.game cause) server := by
  change (match ask server.game with
    | .ok result => pure result
    | .error cause => throw (.game cause) : Handling α) server = _
  cases ask server.game <;> rfl

theorem updateGame_of_ok {α : Type} {update : Update α} {result : α} {game : Game}
    (h : update server.game = .ok result game) :
    updateGame update server = .ok result { server with game } := by
  rw [updateGame, h]

theorem updateGame_of_error {α : Type} {update : Update α} {cause : GameError} {game : Game}
    (h : update server.game = .error cause game) :
    updateGame update server = .error (.game cause) { server with game } := by
  rw [updateGame, h]

/-- A join that the game accepts is counted together with the new population. -/
theorem join_of_ok {mapId : MapId} {name : String} {joined : Joined} {game : Game}
    (h : Update.join mapId name server.game = .ok joined game) :
    join mapId name server = .ok joined { server with
      game
      metrics := server.metrics.recordJoin.setPopulation game.sessionCount game.playerCount } := by
  rw [join, bind_of_ok (updateGame_of_ok h)]
  rfl

theorem join_of_error {mapId : MapId} {name : String} {cause : GameError} {game : Game}
    (h : Update.join mapId name server.game = .error cause game) :
    join mapId name server = .error (.game cause) { server with game } := by
  rw [join, bind_of_error (updateGame_of_error h)]

/-- A step is taken and recorded, unless a clock takes the steps or the time is
no number of milliseconds. -/
theorem tick_eq (elapsed : Duration) (timeDelta : Option Json.Value) (server : Server) :
    tick elapsed timeDelta server =
      if server.mode.isPeriodic then .error .tickNotPermitted server
      else
        match timeDelta.bind (·.natural?) with
        | some milliseconds => .ok () (server.advance (.ofMilliseconds milliseconds) elapsed)
        | none => .error (.game .badTimeDelta) server := by
  have hget : (get : Handling Server) server = .ok server server := rfl
  rw [tick, bind_of_ok hget, Request.timeDelta]
  by_cases hmode : server.mode.isPeriodic = true
  · rw [if_pos hmode, if_pos hmode]
    rfl
  · rw [if_neg hmode, if_neg hmode]
    cases timeDelta.bind (·.natural?) with
    | some milliseconds => rfl
    | none => rfl

/-- A question about the session of a player leaves the server. -/
theorem ask_eq {α : Type} (raw : String) (ask : Game → Token → Except GameError α)
    (answer : α → Response) (server : Server) :
    (do
      let token ← readToken raw
      return answer (← query fun game => ask game token) : Handling Response) server =
      match Token.ofClient? raw with
      | none => .error .invalidToken server
      | some token =>
        match ask server.game token with
        | .ok result => .ok (answer result) server
        | .error cause => .error (.game cause) server := by
  have hread := readToken_eq raw server
  cases htoken : Token.ofClient? raw with
  | none =>
      rw [htoken] at hread
      rw [bind_of_error hread]
  | some token =>
      rw [htoken] at hread
      rw [bind_of_ok hread]
      have hquery := query_eq (fun game => ask game token) server
      dsimp only
      cases hask : ask server.game token with
      | ok result =>
          simp only [hask] at hquery
          rw [bind_of_ok hquery]
          rfl
      | error cause =>
          simp only [hask] at hquery
          rw [bind_of_error hquery]

/-- A command changes the game and nothing else of the server. -/
theorem steer_eq (elapsed : Duration) (raw code : String) (server : Server) :
    dispatch elapsed (.setDirection raw code) server =
      match Token.ofClient? raw with
      | none => .error .invalidToken server
      | some token =>
        match Heading.ofCode? code with
        | none => .error (.game (.invalidHeading code)) server
        | some heading =>
          match server.game.setHeading token heading with
          | .ok game => .ok .ok { server with game }
          | .error cause => .error (.game cause) server := by
  have hread := readToken_eq raw server
  rw [dispatch]
  cases htoken : Token.ofClient? raw with
  | none =>
      rw [htoken] at hread
      rw [bind_of_error hread]
  | some token =>
      rw [htoken] at hread
      rw [bind_of_ok hread, Heading.ofCode]
      cases Heading.ofCode? code with
      | none => rfl
      | some heading =>
          dsimp only
          cases hset : server.game.setHeading token heading with
          | ok game =>
              have hupdate : Update.setHeading token heading server.game = .ok () game := by
                rw [Update.setHeading, hset]
              rw [bind_of_ok (updateGame_of_ok hupdate)]
              rfl
          | error cause =>
              have hupdate : Update.setHeading token heading server.game =
                  .error cause server.game := by rw [Update.setHeading, hset]
              rw [bind_of_error (updateGame_of_error hupdate)]

/-- A description of a map leaves the server. -/
theorem describe_eq (elapsed : Duration) (id : String) (server : Server) :
    dispatch elapsed (.getMap id) server =
      match server.game.findMap? id with
      | some map => .ok (.map (.ofMap map)) server
      | none => .error (.game (.mapNotFound id)) server := by
  have hdispatch : dispatch elapsed (.getMap id) server =
      (match server.game.findMap? id with
        | some map => pure (.map (.ofMap map))
        | none => throw (.game (.mapNotFound id)) : Handling Response) server := rfl
  rw [hdispatch]
  cases server.game.findMap? id with
  | some map => rfl
  | none => rfl

private theorem getMap_settles (id : String) (server : Server) :
    Settles server.game (server.game.respond server.mode (.getMap id))
      (dispatch elapsed (.getMap id) server) := by
  rw [describe_eq, Game.respond]
  cases server.game.findMap? id with
  | some map => rfl
  | none => exact ⟨rfl, Or.inr rfl⟩

private theorem query_settles {α : Type} (raw : String)
    (ask : Game → Token → Except GameError α) (answer : α → Response) (server : Server) :
    Settles server.game (server.game.answerQuery raw ask answer)
      ((do
        let token ← readToken raw
        return answer (← query fun game => ask game token) : Handling Response) server) := by
  rw [ask_eq, Game.answerQuery]
  cases Token.ofClient? raw with
  | none => exact ⟨rfl, Or.inr rfl⟩
  | some token =>
      dsimp only
      cases ask server.game token with
      | ok result => rfl
      | error cause => exact ⟨rfl, Or.inr rfl⟩

private theorem join_settles (hgame : server.game.Consistent) (mapId : MapId) (name : String) :
    Settles server.game (server.game.answerJoin mapId name)
      (dispatch elapsed (.join mapId name) server) := by
  obtain ⟨hagrees, hclean⟩ := Update.join_agrees hgame mapId name
  rw [Game.answerJoin, ← hagrees]
  cases hjoin : Update.join mapId name server.game with
  | ok joined game =>
      rw [dispatch, bind_of_ok (join_of_ok hjoin)]
      rfl
  | error cause game =>
      rw [dispatch, bind_of_error (join_of_error hjoin)]
      rw [hjoin] at hclean
      refine ⟨rfl, ?_⟩
      rcases hclean with rfl | hleft
      · exact Or.inl rfl
      · exact Or.inr hleft

private theorem heading_settles (raw code : String) (server : Server) :
    Settles server.game (server.game.answerHeading raw code)
      (dispatch elapsed (.setDirection raw code) server) := by
  rw [steer_eq, Game.answerHeading]
  cases Token.ofClient? raw with
  | none => exact ⟨rfl, Or.inr rfl⟩
  | some token =>
      dsimp only
      cases Heading.ofCode? code with
      | none => exact ⟨rfl, Or.inr rfl⟩
      | some heading =>
          dsimp only
          cases server.game.setHeading token heading with
          | ok game => rfl
          | error cause => exact ⟨rfl, Or.inr rfl⟩

private theorem tick_settles (timeDelta : Option Json.Value) (server : Server) :
    Settles server.game (server.game.answerTick server.mode timeDelta)
      (dispatch elapsed (.tick timeDelta) server) := by
  have htick := tick_eq elapsed timeDelta server
  rw [Game.answerTick, dispatch]
  split_ifs at htick ⊢ with hmode
  · rw [bind_of_error htick]
    exact ⟨rfl, Or.inr rfl⟩
  · cases hdelta : timeDelta.bind (·.natural?) with
    | some milliseconds =>
        simp only [hdelta] at htick
        rw [bind_of_ok htick]
        rfl
    | none =>
        simp only [hdelta] at htick
        rw [bind_of_error htick]
        exact ⟨rfl, Or.inr rfl⟩

/-- Handling a request comes to its outcome. -/
private theorem dispatch_settles (hgame : server.game.Consistent) (request : Request) :
    Settles server.game (server.game.respond server.mode request)
      (dispatch elapsed request server) := by
  cases request with
  | getMaps => rfl
  | getMap id => exact getMap_settles id server
  | join mapId name => exact join_settles hgame mapId name
  | listPlayers raw => exact query_settles raw _ _ server
  | getState raw => exact query_settles raw _ _ server
  | setDirection raw code => exact heading_settles raw code server
  | tick timeDelta => exact tick_settles timeDelta server

private theorem settles_of_counted (hgame : server.game.Consistent) (elapsed : Duration)
    (request : Request) : Settles server.game (server.game.respond server.mode request)
      (dispatch elapsed request server.countRequest) :=
  @dispatch_settles server.countRequest elapsed hgame request

theorem handle_of_ok (hgame : server.game.Consistent) (elapsed : Duration) {request : Request}
    {response : Response} {game : Game}
    (h : server.game.respond server.mode request = .ok (response, game)) :
    (server.handle elapsed request).1 = .ok response ∧
      (server.handle elapsed request).2.game = game := by
  have hsettles := settles_of_counted hgame elapsed request
  rw [h] at hsettles
  rw [handle]
  cases hdispatch : dispatch elapsed request server.countRequest with
  | ok answer after =>
      rw [hdispatch] at hsettles
      obtain ⟨rfl, rfl⟩ := Prod.mk.inj (Except.ok.inj hsettles)
      exact ⟨rfl, rfl⟩
  | error error after =>
      rw [hdispatch] at hsettles
      cases hsettles.1

theorem handle_of_error (hgame : server.game.Consistent) (elapsed : Duration) {request : Request}
    {error : ApiError} (h : server.game.respond server.mode request = .error error) :
    (server.handle elapsed request).1 = .error error ∧
      (error = .game .tokensExhausted ∨
        (server.handle elapsed request).2.game = server.game) := by
  have hsettles := settles_of_counted hgame elapsed request
  rw [h] at hsettles
  rw [handle]
  cases hdispatch : dispatch elapsed request server.countRequest with
  | ok answer after =>
      rw [hdispatch] at hsettles
      cases hsettles
  | error found after =>
      rw [hdispatch] at hsettles
      obtain ⟨herror, hleft⟩ := hsettles
      cases Except.error.inj herror
      exact ⟨rfl, hleft⟩

end Server

end StreetDogs
