import StreetDogs.Proofs.Server.Contract
import StreetDogs.Proofs.Registry.Tick

/-!
# Accounting

The metrics of a server keep account of what it answers: every message is
counted once, and so is every refusal, every join and every step, whatever mix
of messages a server meets.  No message ever meets an error of the game itself.
-/

namespace StreetDogs

open Api (Request Response ApiError)

namespace Game

def stuckDogs (game : Game) (time : Duration) : ℕ :=
  (game.sessions.map fun session =>
    match game.maps[session.mapIndex]? with
    | some map => session.players.countP (Session.moveFails map time)
    | none => 0).sum

/-- A step reports the dogs that cannot move. -/
theorem failures_eq_stuckDogs (game : Game) (time : Duration) :
    (game.advance time).1.failures = game.stuckDogs time := by
  change AdvanceReport.failuresHom _ = _
  rw [report_advance, map_list_sum, List.map_map, stuckDogs]
  congr 1
  apply List.map_congr_left
  intro session _
  rw [Function.comp_apply, advanceSession]
  cases game.maps[session.mapIndex]? with
  | none => rfl
  | some map => rfl

end Game

/-- A message that was answered, with the game it met. -/
structure Exchange where
  game : Game
  message : Message
  answer : Except ApiError Response

namespace Exchange

def isRefused (exchange : Exchange) : Bool :=
  match exchange.answer with
  | .ok _ => false
  | .error _ => true

def isSuccess (kind : Api.Kind) (exchange : Exchange) : Bool :=
  match exchange.message.read, exchange.answer with
  | .ok request, .ok _ => request.kind == kind
  | _, _ => false

/-- The dogs that could not move in the step that was asked for; none if no step
was taken. -/
def stuckDogs (exchange : Exchange) : ℕ :=
  match exchange.message.read, exchange.answer with
  | .ok (.tick timeDelta), .ok _ =>
    match Request.timeDelta timeDelta with
    | .ok time => exchange.game.stuckDogs time
    | .error _ => 0
  | _, _ => 0

end Exchange

/-- A message, and the time that a step takes if the message asks for one. -/
structure Call where
  message : Message
  elapsed : Duration

namespace Server

variable {server next later : Server} {elapsed : Duration} {message : Message} {request : Request}

def converse (server : Server) : List Call → List Exchange × Server
  | [] => ([], server)
  | call :: calls =>
    let (answer, next) := server.receive call.elapsed call.message
    let (exchanges, last) := next.converse calls
    (⟨server.game, call.message, answer⟩ :: exchanges, last)

def recorded (server : Server) (elapsed : Duration) (game : Game) : Request → Metrics
  | .join _ _ => server.metrics.recordJoin.setPopulation game.sessionCount game.playerCount
  | .tick timeDelta =>
    match timeDelta.bind (·.natural?) with
    | some milliseconds =>
      server.metrics.recordAdvance elapsed (server.game.advance (.ofMilliseconds milliseconds)).1
    | none => server.metrics
  | _ => server.metrics

/-- A result leaves the metrics that a request leads to; an error leaves those
that the request met. -/
def Records (elapsed : Duration) (request : Request) (server : Server) :
    EStateM.Result ApiError Server Response → Prop
  | .ok _ next => next.metrics = server.recorded elapsed next.game request
  | .error _ next => next.metrics = server.metrics

private theorem query_records {α : Type} (request : Request) (raw : String)
    (ask : Game → Token → Except GameError α) (answer : α → Response) (server : Server)
    (hrecorded : ∀ game, server.recorded elapsed game request = server.metrics) :
    Records elapsed request server
      ((do
        let token ← readToken raw
        return answer (← query fun game => ask game token) : Handling Response) server) := by
  rw [ask_eq]
  cases Token.ofClient? raw with
  | none => rfl
  | some token =>
      dsimp only
      cases ask server.game token with
      | ok result => exact (hrecorded _).symm
      | error cause => rfl

private theorem getMap_records (id : String) (server : Server) :
    Records elapsed (.getMap id) server (dispatch elapsed (.getMap id) server) := by
  rw [describe_eq]
  cases server.game.findMap? id with
  | some map => rfl
  | none => rfl

private theorem join_records (mapId : MapId) (name : String) (server : Server) :
    Records elapsed (.join mapId name) server (dispatch elapsed (.join mapId name) server) := by
  cases hjoin : Update.join mapId name server.game with
  | ok joined game =>
      rw [dispatch, bind_of_ok (join_of_ok hjoin)]
      rfl
  | error cause game =>
      rw [dispatch, bind_of_error (join_of_error hjoin)]
      rfl

private theorem heading_records (raw code : String) (server : Server) :
    Records elapsed (.setDirection raw code) server
      (dispatch elapsed (.setDirection raw code) server) := by
  rw [steer_eq]
  cases Token.ofClient? raw with
  | none => rfl
  | some token =>
      dsimp only
      cases Heading.ofCode? code with
      | none => rfl
      | some heading =>
          dsimp only
          cases server.game.setHeading token heading with
          | ok game => rfl
          | error cause => rfl

private theorem tick_records (timeDelta : Option Json.Value) (server : Server) :
    Records elapsed (.tick timeDelta) server (dispatch elapsed (.tick timeDelta) server) := by
  have htick := tick_eq elapsed timeDelta server
  rw [dispatch]
  split_ifs at htick with hmode
  · rw [bind_of_error htick]
    rfl
  · cases hdelta : timeDelta.bind (·.natural?) with
    | some milliseconds =>
        simp only [hdelta] at htick
        rw [bind_of_ok htick]
        change Metrics.recordAdvance _ _ _ = recorded _ _ _ _
        simp only [recorded, hdelta]
        rfl
    | none =>
        simp only [hdelta] at htick
        rw [bind_of_error htick]
        rfl

theorem dispatch_records (elapsed : Duration) (request : Request) (server : Server) :
    Records elapsed request server (dispatch elapsed request server) := by
  cases request with
  | getMaps => rfl
  | getMap id => exact getMap_records id server
  | join mapId name => exact join_records mapId name server
  | listPlayers raw => exact query_records _ raw _ _ server fun _ => rfl
  | getState raw => exact query_records _ raw _ _ server fun _ => rfl
  | setDirection raw code => exact heading_records raw code server
  | tick timeDelta => exact tick_records timeDelta server

theorem handle_records (elapsed : Duration) (request : Request) (server : Server) :
    (∃ response, (server.handle elapsed request).1 = .ok response ∧
        (server.handle elapsed request).2.metrics =
          server.countRequest.recorded elapsed (server.handle elapsed request).2.game request) ∨
      ∃ error, (server.handle elapsed request).1 = .error error ∧
        (server.handle elapsed request).2.metrics =
          server.metrics.recordRequest.recordRequestError error.isInternal := by
  have hrecords := dispatch_records elapsed request server.countRequest
  rw [handle]
  cases hdispatch : dispatch elapsed request server.countRequest with
  | ok response next =>
      rw [hdispatch] at hrecords
      exact Or.inl ⟨response, rfl, hrecords⟩
  | error error next =>
      rw [hdispatch] at hrecords
      have hmetrics : next.metrics = server.metrics.recordRequest := hrecords
      exact Or.inr ⟨error, rfl, congrArg (·.recordRequestError error.isInternal) hmetrics⟩

end Server

namespace Metrics

variable (metrics : Metrics) (time : Duration) (report : AdvanceReport)

/-- Recording a step counts it and the dogs that failed. -/
theorem recordAdvance_counts :
    (metrics.recordAdvance time report).sessions = metrics.sessions ∧
      (metrics.recordAdvance time report).players = .ofNat report.players ∧
      (metrics.recordAdvance time report).tickCount = metrics.tickCount + 1 ∧
      (metrics.recordAdvance time report).dogFailures =
        metrics.dogFailures + .ofNat report.failures ∧
      (metrics.recordAdvance time report).joins = metrics.joins ∧
      (metrics.recordAdvance time report).requests = metrics.requests ∧
      (metrics.recordAdvance time report).requestErrors = metrics.requestErrors ∧
      (metrics.recordAdvance time report).internalFaults = metrics.internalFaults := by
  rw [recordAdvance, recordTickTime, publish]
  split <;> exact ⟨rfl, rfl, rfl, rfl, rfl, rfl, rfl, rfl⟩

end Metrics

/-! ## Tallies -/

namespace Server

variable {server next later : Server} {exchanges more : List Exchange}

/-- What a server has counted between two moments, modulo `2 ^ 64`. -/
structure Tallied (server : Server) (exchanges : List Exchange) (next : Server) : Prop where
  consistent : next.game.Consistent
  requests : next.metrics.requests = server.metrics.requests + .ofNat exchanges.length
  requestErrors : next.metrics.requestErrors =
    server.metrics.requestErrors + .ofNat (exchanges.countP Exchange.isRefused)
  internalFaults : next.metrics.internalFaults = server.metrics.internalFaults
  joins : next.metrics.joins =
    server.metrics.joins + .ofNat (exchanges.countP (Exchange.isSuccess .join))
  tickCount : next.metrics.tickCount =
    server.metrics.tickCount + .ofNat (exchanges.countP (Exchange.isSuccess .tick))
  dogFailures : next.metrics.dogFailures =
    server.metrics.dogFailures + .ofNat (exchanges.map Exchange.stuckDogs).sum
  sessions : server.metrics.sessions = .ofNat server.game.sessionCount →
    next.metrics.sessions = .ofNat next.game.sessionCount
  /-- Every session was opened by a join. -/
  opened : next.game.sessionCount ≤
    server.game.sessionCount + exchanges.countP (Exchange.isSuccess .join)

namespace Tallied

theorem refl (hgame : server.game.Consistent) : Tallied server [] server where
  consistent := hgame
  requests := (UInt64.add_zero _).symm
  requestErrors := (UInt64.add_zero _).symm
  internalFaults := rfl
  joins := (UInt64.add_zero _).symm
  tickCount := (UInt64.add_zero _).symm
  dogFailures := (UInt64.add_zero _).symm
  sessions := id
  opened := Nat.le_refl _

theorem trans (h : Tallied server exchanges next) (h' : Tallied next more later) :
    Tallied server (exchanges ++ more) later where
  consistent := h'.consistent
  requests := by
    rw [h'.requests, h.requests, List.length_append, UInt64.ofNat_add, UInt64.add_assoc]
  requestErrors := by
    rw [h'.requestErrors, h.requestErrors, List.countP_append, UInt64.ofNat_add, UInt64.add_assoc]
  internalFaults := h'.internalFaults.trans h.internalFaults
  joins := by rw [h'.joins, h.joins, List.countP_append, UInt64.ofNat_add, UInt64.add_assoc]
  tickCount := by
    rw [h'.tickCount, h.tickCount, List.countP_append, UInt64.ofNat_add, UInt64.add_assoc]
  dogFailures := by
    rw [h'.dogFailures, h.dogFailures, List.map_append, List.sum_append, UInt64.ofNat_add,
      UInt64.add_assoc]
  sessions hsessions := h'.sessions (h.sessions hsessions)
  opened := by
    have hfirst := h.opened
    have hsecond := h'.opened
    rw [List.countP_append]
    omega

/-- A refusal is counted, and nothing else happens. -/
private theorem of_refusal (hgame : server.game.Consistent) (message : Message) (error : ApiError)
    (hnext : next.game = server.game)
    (hmetrics : next.metrics = server.metrics.recordRequest.recordRequestError false) :
    Tallied server [⟨server.game, message, .error error⟩] next := by
  have hsuccess (kind : Api.Kind) :
      Exchange.isSuccess kind ⟨server.game, message, .error error⟩ = false := by
    rw [Exchange.isSuccess]
    cases message.read <;> rfl
  have hstuck : Exchange.stuckDogs ⟨server.game, message, .error error⟩ = 0 := by
    rw [Exchange.stuckDogs]
    cases message.read with
    | error fault => rfl
    | ok request => cases request <;> rfl
  refine ⟨hnext ▸ hgame, ?_, ?_, ?_, ?_, ?_, ?_, ?_, ?_⟩ <;>
    simp only [hnext, hmetrics, List.countP_singleton, hsuccess, hstuck, List.map_cons,
      List.map_nil, List.sum_singleton, Bool.false_eq_true, if_false]
  · rfl
  · rfl
  · rfl
  · exact (UInt64.add_zero _).symm
  · exact (UInt64.add_zero _).symm
  · exact (UInt64.add_zero _).symm
  · exact id
  · exact Nat.le_refl _

section Success

variable {response : Response}

theorem isSuccess_of_read (hread : message.read = .ok request) (kind : Api.Kind)
    (game : Game) (response : Response) :
    Exchange.isSuccess kind ⟨game, message, .ok response⟩ = (request.kind == kind) := by
  rw [Exchange.isSuccess, hread]

/-- A join is counted with the new population. -/
private theorem of_join {mapId : MapId} {name : String} {joined : Joined}
    (hgame : server.game.Consistent) (hread : message.read = .ok (.join mapId name))
    (hjoin : server.game.join mapId name = .ok (joined, next.game))
    (hmetrics : next.metrics = server.countRequest.recorded elapsed next.game (.join mapId name)) :
    Tallied server [⟨server.game, message, .ok response⟩] next := by
  obtain ⟨hconsistent, hopened⟩ :
      next.game.Consistent ∧ next.game.sessionCount ≤ server.game.sessionCount + 1 := by
    rcases Game.join_cases hgame hjoin with ⟨hnext, -⟩ | ⟨_, _, _, _, hadmission, -⟩
    · rw [hnext]
      exact ⟨hgame, Nat.le_succ _⟩
    · exact ⟨hadmission.consistent hgame, hadmission.length_le⟩
  have hjoins := isSuccess_of_read hread .join server.game response
  have hticks := isSuccess_of_read hread .tick server.game response
  have hstuck : Exchange.stuckDogs ⟨server.game, message, .ok response⟩ = 0 := by
    rw [Exchange.stuckDogs, hread]
  refine ⟨hconsistent, ?_, ?_, ?_, ?_, ?_, ?_, ?_, ?_⟩ <;>
    simp only [hmetrics, List.countP_singleton, hjoins, hticks, hstuck, List.map_cons,
      List.map_nil, List.sum_singleton]
  · rfl
  · exact (UInt64.add_zero _).symm
  · rfl
  · rfl
  · exact (UInt64.add_zero _).symm
  · exact (UInt64.add_zero _).symm
  · exact fun _ => rfl
  · exact hopened

/-- A step is counted with the dogs that could not move. -/
private theorem of_tick {timeDelta : Option Json.Value} {n : ℕ} (hgame : server.game.Consistent)
    (hread : message.read = .ok (.tick timeDelta)) (hnatural : timeDelta.bind (·.natural?) = some n)
    (hnext : next.game = (server.game.advance (.ofMilliseconds n)).2)
    (hmetrics : next.metrics = server.countRequest.recorded elapsed next.game (.tick timeDelta)) :
    Tallied server [⟨server.game, message, .ok response⟩] next := by
  have hsame : server.game.SameRosters next.game := hnext ▸ Game.sameRosters_advance _ _
  simp only [recorded, hnatural] at hmetrics
  obtain ⟨hsessions, -, htickCount, hdogFailures, hjoined, hrequests, herrors, hfaults⟩ :=
    server.metrics.recordRequest.recordAdvance_counts elapsed
      (server.game.advance (.ofMilliseconds n)).1
  have hjoins := isSuccess_of_read hread .join server.game response
  have hticks := isSuccess_of_read hread .tick server.game response
  have hstuck : Exchange.stuckDogs ⟨server.game, message, .ok response⟩ =
      (server.game.advance (.ofMilliseconds n)).1.failures := by
    rw [Exchange.stuckDogs, hread, Game.failures_eq_stuckDogs]
    simp only [Request.timeDelta, hnatural]
  refine ⟨hgame.of_sameRosters hsame, ?_, ?_, ?_, ?_, ?_, ?_, ?_, ?_⟩ <;>
    simp only [hmetrics, List.countP_singleton, hjoins, hticks, hstuck, List.map_cons,
      List.map_nil, List.sum_singleton]
  · exact hrequests
  · exact herrors.trans (UInt64.add_zero _).symm
  · exact hfaults
  · exact hjoined.trans (UInt64.add_zero _).symm
  · exact htickCount
  · exact hdogFailures
  · intro hgauge
    rw [Game.sessionCount, hsame.length_eq]
    exact hsessions.trans hgauge
  · exact Nat.le_of_eq hsame.length_eq

/-- Of a question or a command only the request is counted. -/
private theorem of_other (hgame : server.game.Consistent) (hread : message.read = .ok request)
    (hjoin : request.kind ≠ .join) (htick : request.kind ≠ .tick)
    (hsame : server.game.SameRosters next.game)
    (hmetrics : next.metrics = server.countRequest.recorded elapsed next.game request) :
    Tallied server [⟨server.game, message, .ok response⟩] next := by
  have hjoins := isSuccess_of_read hread .join server.game response
  have hticks := isSuccess_of_read hread .tick server.game response
  rw [beq_eq_false_iff_ne.mpr hjoin] at hjoins
  rw [beq_eq_false_iff_ne.mpr htick] at hticks
  have hcounted : next.metrics = server.metrics.recordRequest := by
    cases request with
    | join _ _ => exact absurd rfl hjoin
    | tick _ => exact absurd rfl htick
    | getMaps | getMap _ | listPlayers _ | getState _ | setDirection _ _ => exact hmetrics
  have hstuck : Exchange.stuckDogs ⟨server.game, message, .ok response⟩ = 0 := by
    rw [Exchange.stuckDogs, hread]
    cases request with
    | tick _ => exact absurd rfl htick
    | getMaps | getMap _ | join _ _ | listPlayers _ | getState _ | setDirection _ _ => rfl
  refine ⟨hgame.of_sameRosters hsame, ?_, ?_, ?_, ?_, ?_, ?_, ?_, ?_⟩ <;>
    simp only [hcounted, List.countP_singleton, hjoins, hticks, hstuck, List.map_cons,
      List.map_nil, List.sum_singleton]
  · rfl
  · exact (UInt64.add_zero _).symm
  · rfl
  · exact (UInt64.add_zero _).symm
  · exact (UInt64.add_zero _).symm
  · exact (UInt64.add_zero _).symm
  · intro hgauge
    rw [Game.sessionCount, hsame.length_eq]
    exact hgauge
  · exact Nat.le_of_eq hsame.length_eq

end Success

/-- What one message adds to the metrics. -/
theorem receive (hgame : server.game.Consistent) (elapsed : Duration) (message : Message)
    (hanswered : (server.receive elapsed message).1 ≠ .error (.game .tokensExhausted)) :
    Tallied server [⟨server.game, message, (server.receive elapsed message).1⟩]
      (server.receive elapsed message).2 := by
  cases hread : message.read with
  | error fault =>
      cases message with
      | typed request => cases hread
      | text body =>
          have hparse : Request.parse body = .error fault := hread
          rw [Server.receive, handleText, hparse]
          exact of_refusal hgame _ _ rfl rfl
  | ok request =>
      rw [receive_of_read hread] at hanswered ⊢
      cases hrespond : server.game.respond server.mode request with
      | error error =>
          obtain ⟨hanswer, hleft⟩ := handle_of_error hgame elapsed hrespond
          obtain ⟨_, hsuccess, -⟩ | ⟨found, hfound, hmetrics⟩ :=
            handle_records elapsed request server
          · rw [hanswer] at hsuccess
            cases hsuccess
          rw [hanswer] at hanswered hfound ⊢
          obtain rfl := Except.error.inj hfound
          rw [Game.isInternal_of_respond hgame hrespond] at hmetrics
          refine of_refusal hgame message _ (hleft.resolve_left fun herror => ?_) hmetrics
          exact hanswered (congrArg _ herror)
      | ok outcome =>
          obtain ⟨response, game⟩ := outcome
          obtain ⟨hanswer, rfl⟩ := handle_of_ok hgame elapsed hrespond
          obtain ⟨_, -, hmetrics⟩ | ⟨_, hrefused, -⟩ := handle_records elapsed request server
          · rw [hanswer]
            rcases Game.respond_cases hgame hrespond with
              ⟨mapId, name, joined, rfl, hjoin⟩ | ⟨timeDelta, n, hnatural, rfl, hnext⟩ |
                ⟨hjoin, htick, hsame⟩
            · exact of_join hgame hread hjoin hmetrics
            · exact of_tick hgame hread hnatural hnext hmetrics
            · exact of_other hgame hread hjoin htick hsame hmetrics
          · rw [hanswer] at hrefused
            cases hrefused

/-- What a conversation adds to the metrics. -/
theorem converse (hgame : server.game.Consistent) (calls : List Call)
    (hanswered : ∀ exchange ∈ (server.converse calls).1,
      exchange.answer ≠ .error (.game .tokensExhausted)) :
    Tallied server (server.converse calls).1 (server.converse calls).2 := by
  induction calls generalizing server with
  | nil => exact refl hgame
  | cons call calls ih =>
      have hfirst := receive hgame call.elapsed call.message (hanswered _ List.mem_cons_self)
      exact hfirst.trans
        (ih hfirst.consistent fun exchange hmem => hanswered exchange (List.mem_cons_of_mem _ hmem))

end Tallied

theorem length_converse (server : Server) (calls : List Call) :
    (server.converse calls).1.length = calls.length := by
  induction calls generalizing server with
  | nil => rfl
  | cons call calls ih => exact congrArg (· + 1) (ih _)

/-- The metrics agree with what was asked and answered. -/
structure Accounted (calls : List Call) (exchanges : List Exchange) (server : Server) : Prop where
  requests : server.metrics.requests.toNat = calls.length
  requestErrors : server.metrics.requestErrors.toNat = exchanges.countP Exchange.isRefused
  internalFaults : server.metrics.internalFaults = 0
  joins : server.metrics.joins.toNat = exchanges.countP (Exchange.isSuccess .join)
  tickCount : server.metrics.tickCount.toNat = exchanges.countP (Exchange.isSuccess .tick)
  dogFailures : server.metrics.dogFailures.toNat = (exchanges.map Exchange.stuckDogs).sum
  sessions : server.metrics.sessions.toNat = server.game.sessionCount

/-- After every conversation with a new server, in either mode, the metrics agree
with what was asked and answered, as long as there are tokens left. -/
theorem accounted_after {maps : List StreetMap} {settings : GameSettings}
    {entropy : Supply UInt64} {tokens : Supply Token} {game : Game}
    (hnew : Game.new maps settings entropy tokens = .ok game) (mode : TickMode)
    (calls : List Call)
    (hanswered : ∀ exchange ∈ (Server.converse { game, mode } calls).1,
      exchange.answer ≠ .error (.game .tokensExhausted))
    (hcalls : calls.length < 2 ^ 64)
    (hstuck : ((Server.converse { game, mode } calls).1.map Exchange.stuckDogs).sum < 2 ^ 64) :
    Accounted calls (Server.converse { game, mode } calls).1
      (Server.converse { game, mode } calls).2 := by
  have htallied : Tallied { game, mode } (Server.converse { game, mode } calls).1
      (Server.converse { game, mode } calls).2 :=
    Tallied.converse (Game.consistent_new hnew) calls hanswered
  have hlength := length_converse { game, mode } calls
  have hcount (p : Exchange → Bool) :
      (Server.converse { game, mode } calls).1.countP p < 2 ^ 64 :=
    (List.countP_le_length.trans_eq hlength).trans_lt hcalls
  have hzero : ({ game, mode } : Server).game.sessionCount = 0 :=
    congrArg List.length (Game.sessions_new hnew)
  have hopened := htallied.opened
  rw [hzero, Nat.zero_add] at hopened
  have hgauge := htallied.sessions (by rw [hzero]; rfl)
  exact {
    requests := by
      rw [htallied.requests, hlength, UInt64.zero_add, UInt64.toNat_ofNat_of_lt' hcalls]
    requestErrors := by
      rw [htallied.requestErrors, UInt64.zero_add, UInt64.toNat_ofNat_of_lt' (hcount _)]
    internalFaults := htallied.internalFaults
    joins := by rw [htallied.joins, UInt64.zero_add, UInt64.toNat_ofNat_of_lt' (hcount _)]
    tickCount := by rw [htallied.tickCount, UInt64.zero_add, UInt64.toNat_ofNat_of_lt' (hcount _)]
    dogFailures := by rw [htallied.dogFailures, UInt64.zero_add, UInt64.toNat_ofNat_of_lt' hstuck]
    sessions := by rw [hgauge, UInt64.toNat_ofNat_of_lt' (hopened.trans_lt (hcount _))] }

/-- A join, a text that holds no request, a join without a name, a step, a step
without a time, and the first join again. -/
def shortTalk : List Call := [
  ⟨.typed (.join "town" "Rex"), ⟨0⟩⟩, ⟨.text "!", ⟨0⟩⟩, ⟨.typed (.join "town" ""), ⟨0⟩⟩,
  ⟨.typed (.tick (some (.int 1000))), ⟨5000⟩⟩, ⟨.typed (.tick none), ⟨5000⟩⟩,
  ⟨.typed (.join "town" "Rex"), ⟨0⟩⟩]

/-- The metrics agree with three refusals, two joins and one step. -/
theorem accounted_after_shortTalk :
    let talk := Server.converse { game := Game.onThreeRoads, mode := .external } shortTalk
    talk.1.countP Exchange.isRefused = 3 ∧ talk.1.countP (Exchange.isSuccess .join) = 2 ∧
      talk.1.countP (Exchange.isSuccess .tick) = 1 ∧ Accounted shortTalk talk.1 talk.2 := by
  intro talk
  have hanswered : ∀ exchange ∈ talk.1, exchange.answer ≠ .error (.game .tokensExhausted) := by
    decide +kernel
  have hstuck : (talk.1.map Exchange.stuckDogs).sum < 2 ^ 64 := by decide +kernel
  exact ⟨by decide +kernel, by decide +kernel, by decide +kernel,
    accounted_after Game.new_onThreeRoads .external shortTalk hanswered (by decide) hstuck⟩

end Server

end StreetDogs
