import StreetDogs.Proofs.Server.Requests

/-!
# What clients rely on

Clients send requests and texts that should hold one.  In every game that a run
leads to, a message that is refused changes nothing in the game, and so does a
question; a step is taken exactly when no clock takes the steps and the time is
a number of milliseconds; and of several faults the first is told.
-/

namespace StreetDogs

open Api (Request Response ApiError)

/-- What a client sends: a request, or a text that should hold one. -/
inductive Message where
  | typed (request : Request)
  | text (body : String)

def Message.read : Message → Except Json.Fault Request
  | .typed request => .ok request
  | .text body => Request.parse body

namespace Server

variable {server : Server} {elapsed : Duration} {message : Message} {request : Request}

def receive (server : Server) (elapsed : Duration) :
    Message → Except ApiError Response × Server
  | .typed request => server.handle elapsed request
  | .text body => server.handleText elapsed body

structure Reliable (server : Server) : Prop where
  /-- A refusal leaves the game as it was. -/
  refused : ∀ elapsed message error, (server.receive elapsed message).1 = .error error →
    error ≠ .game .tokensExhausted → (server.receive elapsed message).2.game = server.game
  /-- No token is left only when the search for one has met as many tokens of the
  supply as there are tokens, all of them held by players. -/
  exhausted : ∀ elapsed message,
    (server.receive elapsed message).1 = .error (.game .tokensExhausted) →
      ∀ index < Token.count, ∃ place seat player,
        server.game.playerAt? place seat = some player ∧
          player.token = server.game.tokens.item (server.game.tokens.taken + index)
  asked : ∀ elapsed message request, message.read = .ok request → request.isQuery = true →
    (server.receive elapsed message).2.game = server.game
  /-- Messages lead to games that operations lead to. -/
  reached : ∀ elapsed message,
    (server.receive elapsed message).1 ≠ .error (.game .tokensExhausted) →
      ∃ operations, (server.receive elapsed message).2.game = server.game.after operations
  tick_ok : ∀ elapsed message timeDelta, message.read = .ok (.tick timeDelta) →
    ((∃ response, (server.receive elapsed message).1 = .ok response) ↔
      server.mode = .external ∧
        ∃ n : ℕ, n < 2 ^ 64 ∧ timeDelta = some (.number (.integer n)))
  tick_game : ∀ elapsed message (n : ℕ), message.read = .ok (.tick (some (.number (.integer n)))) →
    server.mode = .external → n < 2 ^ 64 →
      (server.receive elapsed message).2.game = (server.game.advance (.ofMilliseconds n)).2
  tick_periodic : ∀ elapsed message timeDelta period, message.read = .ok (.tick timeDelta) →
    server.mode = .periodic period →
      (server.receive elapsed message).1 = .error .tickNotPermitted
  heading_token : ∀ elapsed message raw code, message.read = .ok (.setDirection raw code) →
    Token.ofClient? raw = none → (server.receive elapsed message).1 = .error .invalidToken
  heading_code : ∀ elapsed message raw code token, message.read = .ok (.setDirection raw code) →
    Token.ofClient? raw = some token → Heading.ofCode? code = none →
      (server.receive elapsed message).1 = .error (.game (.invalidHeading code))
  heading_owner : ∀ elapsed message raw code token heading,
    message.read = .ok (.setDirection raw code) → Token.ofClient? raw = some token →
      Heading.ofCode? code = some heading →
        (∀ place seat player, server.game.playerAt? place seat = some player →
          player.token ≠ token) →
        (server.receive elapsed message).1 = .error (.game .unknownToken)
  heading_ok : ∀ elapsed message raw code token heading place seat player,
    message.read = .ok (.setDirection raw code) → Token.ofClient? raw = some token →
      Heading.ofCode? code = some heading → server.game.playerAt? place seat = some player →
        player.token = token → (server.receive elapsed message).1 = .ok .ok
  join_name : ∀ elapsed message mapId, message.read = .ok (.join mapId "") →
    (server.receive elapsed message).1 = .error (.game .emptyName)
  join_map : ∀ elapsed message mapId name, message.read = .ok (.join mapId name) → name ≠ "" →
    (∀ map ∈ server.game.maps, map.id ≠ mapId) →
      (server.receive elapsed message).1 = .error (.game (.mapNotFound mapId))
  join_ok : ∀ elapsed message mapId name map, message.read = .ok (.join mapId name) → name ≠ "" →
    map ∈ server.game.maps → map.id = mapId →
      (∃ joined, (server.receive elapsed message).1 = .ok (.joined joined)) ∨
        (server.receive elapsed message).1 = .error (.game .tokensExhausted)

theorem receive_of_read (h : message.read = .ok request) :
    server.receive elapsed message = server.handle elapsed request := by
  cases message with
  | typed other => rw [receive, Except.ok.inj h]
  | text body =>
      have hparse : Request.parse body = .ok request := h
      rw [receive, handleText, hparse]

private theorem game_of_unread (server : Server) (elapsed : Duration) {fault : Json.Fault}
    (h : message.read = .error fault) :
    (server.receive elapsed message).1 = .error (.badRequest fault) ∧
      (server.receive elapsed message).2.game = server.game := by
  cases message with
  | typed request => cases h
  | text body =>
      have hparse : Request.parse body = .error fault := h
      rw [receive, handleText, hparse]
      exact ⟨rfl, rfl⟩

private theorem receive_of_ok (hgame : server.game.Consistent) (elapsed : Duration)
    {response : Response} {game : Game} (hread : message.read = .ok request)
    (h : server.game.respond server.mode request = .ok (response, game)) :
    (server.receive elapsed message).1 = .ok response ∧
      (server.receive elapsed message).2.game = game := by
  rw [receive_of_read hread]
  exact handle_of_ok hgame elapsed h

private theorem receive_of_error (hgame : server.game.Consistent) (elapsed : Duration)
    {error : ApiError} (hread : message.read = .ok request)
    (h : server.game.respond server.mode request = .error error) :
    (server.receive elapsed message).1 = .error error ∧
      (error = .game .tokensExhausted ∨
        (server.receive elapsed message).2.game = server.game) := by
  rw [receive_of_read hread]
  exact handle_of_error hgame elapsed h

/-- What a message comes to: it is not read, or its request has an outcome. -/
private theorem receive_cases (hgame : server.game.Consistent) (elapsed : Duration)
    (message : Message) :
    (∃ fault, (server.receive elapsed message).1 = .error (.badRequest fault) ∧
        (server.receive elapsed message).2.game = server.game) ∨
      (∃ request response, (server.receive elapsed message).1 = .ok response ∧
        server.game.respond server.mode request =
          .ok (response, (server.receive elapsed message).2.game)) ∨
      ∃ request error, (server.receive elapsed message).1 = .error error ∧
        server.game.respond server.mode request = .error error ∧
        (error = .game .tokensExhausted ∨
          (server.receive elapsed message).2.game = server.game) := by
  cases hread : message.read with
  | error fault =>
      obtain ⟨hanswer, hleft⟩ := game_of_unread server elapsed hread
      exact Or.inl ⟨fault, hanswer, hleft⟩
  | ok request =>
      cases hrespond : server.game.respond server.mode request with
      | ok outcome =>
          obtain ⟨response, game⟩ := outcome
          obtain ⟨hanswer, rfl⟩ := receive_of_ok hgame elapsed hread hrespond
          exact Or.inr (Or.inl ⟨request, response, hanswer, hrespond⟩)
      | error error =>
          obtain ⟨hanswer, hleft⟩ := receive_of_error hgame elapsed hread hrespond
          exact Or.inr (Or.inr ⟨request, error, hanswer, hrespond, hleft⟩)

private theorem answer_of_error (hgame : server.game.Consistent) {error : ApiError}
    (hread : message.read = .ok request)
    (h : server.game.respond server.mode request = .error error) :
    (server.receive elapsed message).1 = .error error :=
  (receive_of_error hgame elapsed hread h).1

private theorem game_of_refusal (hgame : server.game.Consistent) {error : ApiError}
    (h : (server.receive elapsed message).1 = .error error)
    (hne : error ≠ .game .tokensExhausted) :
    (server.receive elapsed message).2.game = server.game := by
  rcases receive_cases hgame elapsed message with
    ⟨_, -, hleft⟩ | ⟨_, _, hanswer, -⟩ | ⟨_, _, hanswer, -, hleft⟩
  · exact hleft
  · rw [hanswer] at h
    cases h
  · rw [hanswer] at h
    rw [Except.error.inj h] at hleft
    exact hleft.resolve_left hne

private theorem game_of_query (hgame : server.game.Consistent) (elapsed : Duration)
    (hread : message.read = .ok request) (hquery : request.isQuery = true) :
    (server.receive elapsed message).2.game = server.game := by
  rcases Game.respond_query hgame server.mode hquery with ⟨_, hrespond⟩ | ⟨_, hrespond, hne⟩
  · exact (receive_of_ok hgame elapsed hread hrespond).2
  · exact (receive_of_error hgame elapsed hread hrespond).2.resolve_left hne

private theorem unusedToken?_of_exhausted (hgame : server.game.Consistent)
    (h : (server.receive elapsed message).1 = .error (.game .tokensExhausted)) :
    server.game.unusedToken? = none := by
  rcases receive_cases hgame elapsed message with
    ⟨_, hanswer, -⟩ | ⟨_, _, hanswer, -⟩ | ⟨_, _, hanswer, hrespond, -⟩ <;>
    rw [hanswer] at h
  · cases h
  · cases h
  · rw [Except.error.inj h] at hrespond
    exact Game.respond_exhausted hgame hrespond

/-- A message does to the game what operations do, and none of them advances the
game when a clock does. -/
theorem after_of_receive (hgame : server.game.Consistent)
    (hne : (server.receive elapsed message).1 ≠ .error (.game .tokensExhausted)) :
    ∃ operations, (server.receive elapsed message).2.game = server.game.after operations ∧
      (server.mode.isPeriodic = true → operations.filterMap Operation.time? = []) := by
  rcases receive_cases hgame elapsed message with
    ⟨_, -, hleft⟩ | ⟨_, _, -, hrespond⟩ | ⟨_, _, hanswer, -, hleft⟩
  · exact ⟨[], hleft, fun _ => rfl⟩
  · exact Game.after_of_respond hgame hrespond
  · rcases hleft with rfl | hleft
    · exact absurd hanswer hne
    · exact ⟨[], hleft, fun _ => rfl⟩

private theorem tick_of_natural (hgame : server.game.Consistent) (elapsed : Duration) {n : ℕ}
    (hread : message.read = .ok (.tick (some (.number (.integer n)))))
    (hmode : server.mode = .external) (hlt : n < 2 ^ 64) :
    (server.receive elapsed message).1 = .ok .ok ∧
      (server.receive elapsed message).2.game =
        (server.game.advance (.ofMilliseconds n)).2 := by
  have hrespond := server.game.answerTick_of_natural hlt
  rw [← hmode] at hrespond
  exact receive_of_ok hgame elapsed hread hrespond

/-- A server of a consistent game is reliable. -/
private theorem reliable_of_consistent (hgame : server.game.Consistent) : server.Reliable where
  refused _ _ _ herror hne := game_of_refusal hgame herror hne
  exhausted _ _ herror _ hindex :=
    Game.held_of_unusedToken?_eq_none (unusedToken?_of_exhausted hgame herror) hindex
  asked elapsed _ _ hread hquery := game_of_query hgame elapsed hread hquery
  reached _ _ hne := (after_of_receive hgame hne).imp fun _ hafter => hafter.1
  tick_ok elapsed message timeDelta hread := by
    constructor
    · rintro ⟨response, hresponse⟩
      rcases server.game.answerTick_cases server.mode timeDelta with
        hrespond | hrespond | ⟨hmode, n, hlt, hdelta, -⟩
      · rw [answer_of_error hgame hread hrespond] at hresponse
        cases hresponse
      · rw [answer_of_error hgame hread hrespond] at hresponse
        cases hresponse
      · exact ⟨hmode, n, hlt, hdelta⟩
    · rintro ⟨hmode, n, hlt, rfl⟩
      exact ⟨.ok, (tick_of_natural hgame elapsed hread hmode hlt).1⟩
  tick_game elapsed message n hread hmode hlt :=
    (tick_of_natural hgame elapsed hread hmode hlt).2
  tick_periodic elapsed message timeDelta period hread hmode := by
    apply answer_of_error hgame hread
    rw [Game.respond, Game.answerTick, hmode]
    rfl
  heading_token elapsed message raw code hread htoken := by
    apply answer_of_error hgame hread
    rw [Game.respond, Game.answerHeading, htoken]
  heading_code elapsed message raw code token hread htoken hcode := by
    apply answer_of_error hgame hread
    rw [Game.respond, Game.answerHeading, htoken, hcode]
  heading_owner elapsed message raw code token heading hread htoken hcode hnone := by
    apply answer_of_error hgame hread
    have hunknown := Game.findByToken?_eq_none_iff.mpr hnone
    simp only [Game.respond, Game.answerHeading, htoken, hcode, Game.setHeading, hunknown]
  heading_ok elapsed message raw code token heading place seat player hread htoken hcode hplayer
      howner := by
    rcases Game.answerHeading_of_read hgame htoken hcode with ⟨next, -, hrespond⟩ | ⟨hnone, -⟩
    · exact (receive_of_ok hgame elapsed hread hrespond).1
    · exact absurd howner (Game.findByToken?_eq_none_iff.mp hnone place seat player hplayer)
  join_name elapsed message mapId hread := by
    apply answer_of_error hgame hread
    rw [Game.respond, Game.answerJoin, Game.join_empty]
  join_map elapsed message mapId name hread hname hnone := by
    apply answer_of_error hgame hread
    rw [Game.respond, Game.answerJoin, Game.join_unknown_map hgame hname hnone]
  join_ok elapsed message mapId name map hread hname hmap hmapId := by
    rcases Game.answerJoin_of_known hgame hname hmap hmapId with ⟨joined, next, hrespond⟩ | hrespond
    · exact Or.inl ⟨joined, (receive_of_ok hgame elapsed hread hrespond).1⟩
    · exact Or.inr (answer_of_error hgame hread hrespond)

/-- In every game that a run leads to, a server is reliable in either mode. -/
theorem reliable_after {maps : List StreetMap} {settings : GameSettings}
    {entropy : Supply UInt64} {tokens : Supply Token} {start : Game}
    (hnew : Game.new maps settings entropy tokens = .ok start) (operations : List Operation)
    (server : Server) (hserver : server.game = start.after operations) : server.Reliable := by
  apply reliable_of_consistent
  rw [hserver]
  exact (Game.consistent_new hnew).after operations

/-- A server with a clock is reliable after two joins, a command and a step. -/
theorem reliable_after_shortRun :
    let game := Game.onThreeRoads.after Game.shortRun
    let server : Server := { game, mode := .periodic ⟨50000000⟩ }
    server.game = game ∧ server.Reliable := by
  intro game server
  have hserver : server.game = game := by dsimp only [server]
  exact ⟨hserver, reliable_after Game.new_onThreeRoads Game.shortRun server hserver⟩

end Server

end StreetDogs
