import StreetDogs.Proofs.Server.Accounting

/-!
# Requests at the same time

A join changes the game and the gauge of players at once.  A step has two parts:
the game is advanced, and some time later the count of players in its report is
stored.  Players who join in between are missing from that count.  In every
interleaving the gauge is right exactly when the count that was stored last had
not been overtaken by a newcomer; it is not true that the gauge is right as soon
as no request is under way.
-/

namespace StreetDogs

namespace Game

variable {game next : Game}

theorem playerCount_advance (game : Game) (time : Duration) :
    (game.advance time).2.playerCount = game.playerCount := by
  rw [playerCount_eq_sum, playerCount_eq_sum, advance, List.map_map, List.map_map]
  congr 1
  apply List.map_congr_left
  intro session _
  simp only [Function.comp_apply, advanceSession]
  cases game.maps[session.mapIndex]? with
  | none => rfl
  | some map => exact List.length_map _

/-- A session that is opened has no players yet. -/
theorem playerCount_withSession (game : Game) (map : StreetMap) (mapPlace : ℕ) :
    (game.withSession map mapPlace).1.playerCount = game.playerCount := by
  rw [withSession]
  cases game.sessionPlaces.place? map.id with
  | some place => rfl
  | none =>
      rw [playerCount_eq_sum, playerCount_eq_sum, List.map_append, List.sum_append]
      rfl

/-- A session that grows lets the number of players grow. -/
theorem playerCount_le_set {place : ℕ} {session larger : Session}
    (hsession : game.sessions[place]? = some session)
    (hlarger : session.players.length ≤ larger.players.length)
    (hsessions : next.sessions = game.sessions.set place larger) :
    game.playerCount ≤ next.playerCount := by
  obtain ⟨hlt, hget⟩ := List.getElem?_eq_some_iff.mp hsession
  obtain ⟨before, later, hgame, -, hset⟩ := @List.exists_of_set _ _ larger _ hlt
  rw [playerCount_eq_sum, playerCount_eq_sum, hsessions, hset]
  rw [hget] at hgame
  rw [hgame]
  simp only [List.map_append, List.map_cons, List.sum_append, List.sum_cons, Session.playerCount]
  omega

end Game

namespace Update

variable {game : Game}

/-- A result with no fewer players than before; an error leaves their number. -/
def Grows {α : Type} (game : Game) : EStateM.Result GameError Game α → Prop
  | .ok _ next => game.playerCount ≤ next.playerCount
  | .error _ left => left.playerCount = game.playerCount

private theorem findMap_cases (mapId : MapId) (game : Game) :
    (∃ error, findMap mapId game = .error error game) ∨
      ∃ found, findMap mapId game = .ok found game := by
  rw [findMap]
  cases game.mapPlaces.place? mapId with
  | none => exact Or.inl ⟨_, rfl⟩
  | some mapPlace =>
      dsimp only
      cases game.maps[mapPlace]? with
      | none => exact Or.inl ⟨_, rfl⟩
      | some map => exact Or.inr ⟨_, rfl⟩

private theorem length_le_join (session : Session) (name : String) (map : StreetMap)
    (randomize : Bool) (words : Supply UInt64) (token : Token) :
    session.players.length ≤ (session.join name map randomize words token).2.1.players.length := by
  rw [Session.join]
  cases session.playerNamed? name with
  | some player => exact Nat.le_refl _
  | none => simp

private theorem seatPlayer_grows {map : StreetMap} {place : ℕ} {session : Session}
    (hsession : game.sessions[place]? = some session) (name : String) (token : Token) :
    Grows game (seatPlayer map place session name token game) := by
  rw [seatPlayer]
  split_ifs
  · rfl
  · exact Game.playerCount_le_set hsession (length_le_join session name map _ _ token) rfl

/-- A join takes no player away. -/
theorem join_grows (mapId : MapId) (name : String) (game : Game) :
    Grows game (join mapId name game) := by
  rw [join]
  split_ifs with hname
  · rfl
  rcases findMap_cases mapId game with ⟨error, hfind⟩ | ⟨⟨map, mapPlace⟩, hfind⟩
  · rw [bind_of_error hfind]
    rfl
  rw [bind_of_ok hfind]
  have hopened := game.playerCount_withSession map mapPlace
  have hopen : openSession map mapPlace game =
      .ok (game.withSession map mapPlace).2 (game.withSession map mapPlace).1 := rfl
  dsimp only
  rw [bind_of_ok hopen]
  generalize game.withSession map mapPlace = opening at hopened
  obtain ⟨opened, place⟩ := opening
  cases hsession : opened.sessions[place]? with
  | none =>
      have hat : sessionAt place opened = .error .invalidSession opened := by
        rw [sessionAt, hsession]
      rw [bind_of_error hat]
      exact hopened
  | some session =>
      have hat : sessionAt place opened = .ok session opened := by rw [sessionAt, hsession]
      rw [bind_of_ok hat]
      cases session.playerNamed? name with
      | some player => exact hopened.symm.le
      | none =>
          dsimp only
          cases htoken : opened.unusedToken? with
          | none =>
              rw [bind_of_error (show drawToken opened = .error .tokensExhausted opened by
                rw [drawToken, htoken])]
              exact hopened
          | some drawn =>
              obtain ⟨token, tokens⟩ := drawn
              rw [bind_of_ok (show drawToken opened = .ok token { opened with tokens } by
                rw [drawToken, htoken])]
              have hkept : ({ opened with tokens } : Game).sessions[place]? = some session :=
                hsession
              have hgrows : Grows _ (seatPlayer map place session name token _) :=
                seatPlayer_grows hkept name token
              cases hseat : seatPlayer map place session name token { opened with tokens } with
              | error error left =>
                  rw [hseat] at hgrows
                  rw [bind_of_error hseat]
                  exact hgrows.trans hopened
              | ok player next =>
                  rw [hseat] at hgrows
                  rw [bind_of_ok hseat]
                  exact hopened.symm.le.trans hgrows

end Update

/-! ## Interleavings -/

/-- A step that was taken and whose report is still to be recorded. -/
structure PendingReport where
  report : AdvanceReport
  /-- A player has joined since the step was taken. -/
  overtaken : Bool := false

/-- A server with the steps that are under way, and what an observer remembers. -/
structure Traffic where
  server : Server
  pending : List PendingReport := []
  /-- The count of players stored last was that of a step overtaken by then. -/
  outdated : Bool := false

/-- What happens next.  Requests and ticks of a clock are under way together, and
any of them may be the next to go on. -/
inductive Event where
  | join (mapId : MapId) (name : String)
  | advance (time : Duration)
  /-- One of the pending reports is recorded. -/
  | record (place : ℕ) (elapsed : Duration)
deriving DecidableEq, Repr

namespace Traffic

variable {traffic : Traffic} {game : Game} {count : ℕ} {outdated : Bool}

def start (game : Game) (mode : TickMode) : Traffic := { server := { game, mode } }

def step (traffic : Traffic) : Event → Traffic
  | .join mapId name =>
    match Server.join mapId name traffic.server with
    | .ok _ server =>
      let newcomer := decide (traffic.server.game.playerCount < server.game.playerCount)
      { server
        pending := traffic.pending.map fun waiting =>
          { waiting with overtaken := waiting.overtaken || newcomer } }
    | .error _ server => { traffic with server }
  | .advance time =>
    let (report, server) := traffic.server.advanceGame time
    { traffic with server, pending := traffic.pending ++ [{ report }] }
  | .record place elapsed =>
    match traffic.pending[place]? with
    | none => traffic
    | some waiting =>
      { server := traffic.server.recordReport elapsed waiting.report
        pending := traffic.pending.eraseIdx place
        outdated := waiting.overtaken }

def after (traffic : Traffic) (events : List Event) : Traffic := events.foldl step traffic

/-- A count is that of the players of a game, or below it if it is outdated. -/
def Counts (count : ℕ) (outdated : Bool) (game : Game) : Prop :=
  if outdated then count < game.playerCount else count = game.playerCount

theorem Counts.le (h : Counts count outdated game) : count ≤ game.playerCount := by
  rw [Counts] at h
  split_ifs at h
  · exact h.le
  · exact h.le

theorem Counts.eq_iff (h : Counts count outdated game) :
    count = game.playerCount ↔ outdated = false := by
  rw [Counts] at h
  cases outdated with
  | false => exact iff_of_true h rfl
  | true => exact iff_of_false h.ne Bool.false_ne_true.symm

/-- A count is overtaken when the number of players grows. -/
theorem Counts.grow {next : Game} (h : Counts count outdated game)
    (hle : game.playerCount ≤ next.playerCount) :
    Counts count (outdated || decide (game.playerCount < next.playerCount)) next := by
  rw [Counts] at h ⊢
  by_cases hlt : game.playerCount < next.playerCount
  · rw [decide_eq_true hlt, Bool.or_true, if_pos rfl]
    split_ifs at h <;> omega
  · rw [decide_eq_false hlt, Bool.or_false]
    split_ifs at h ⊢ <;> omega

theorem Counts.of_eq {next : Game} (h : Counts count outdated game)
    (heq : next.playerCount = game.playerCount) : Counts count outdated next := by
  rwa [Counts, heq]

/-- The gauge and every pending report count the players, except those who came
too late. -/
structure Gauged (traffic : Traffic) : Prop where
  pending : ∀ waiting ∈ traffic.pending,
    Counts waiting.report.players waiting.overtaken traffic.server.game
  gauge : ∃ count, traffic.server.metrics.players = .ofNat count ∧
    Counts count traffic.outdated traffic.server.game

theorem Gauged.of_eq {server : Server} (h : Gauged traffic)
    (hcount : server.game.playerCount = traffic.server.game.playerCount)
    (hgauge : server.metrics.players = traffic.server.metrics.players) :
    Gauged { traffic with server } where
  pending waiting hwaiting := (h.pending waiting hwaiting).of_eq hcount
  gauge := by
    obtain ⟨count, hplayers, hcounts⟩ := h.gauge
    exact ⟨count, hgauge.trans hplayers, hcounts.of_eq hcount⟩

private theorem Gauged.join (h : Gauged traffic) (mapId : MapId) (name : String) :
    Gauged (traffic.step (.join mapId name)) := by
  have hgrows := Update.join_grows mapId name traffic.server.game
  rw [step]
  cases hjoin : Update.join mapId name traffic.server.game with
  | error cause game =>
      rw [hjoin] at hgrows
      rw [Server.join_of_error hjoin]
      exact h.of_eq hgrows rfl
  | ok joined game =>
      rw [hjoin] at hgrows
      rw [Server.join_of_ok hjoin]
      refine ⟨fun waiting hwaiting => ?_, game.playerCount, rfl, rfl⟩
      obtain ⟨earlier, hearlier, rfl⟩ := List.mem_map.mp hwaiting
      exact (h.pending earlier hearlier).grow hgrows

private theorem Gauged.advance (h : Gauged traffic) (time : Duration) :
    Gauged (traffic.step (.advance time)) := by
  have hcount := traffic.server.game.playerCount_advance time
  have hkept : Gauged { traffic with server := (traffic.server.advanceGame time).2 } :=
    h.of_eq hcount rfl
  refine ⟨fun waiting hwaiting => ?_, hkept.gauge⟩
  rcases List.mem_append.mp hwaiting with hwaiting | hwaiting
  · exact hkept.pending waiting hwaiting
  · rw [List.mem_singleton.mp hwaiting]
    exact (Game.players_report _ _).trans hcount.symm

private theorem Gauged.record (h : Gauged traffic) (place : ℕ) (elapsed : Duration) :
    Gauged (traffic.step (.record place elapsed)) := by
  rw [step]
  cases hwaiting : traffic.pending[place]? with
  | none => exact h
  | some waiting =>
      have hplayers : (traffic.server.recordReport elapsed waiting.report).metrics.players =
          .ofNat waiting.report.players := by
        rw [Server.recordReport]
        exact (traffic.server.metrics.recordAdvance_counts elapsed waiting.report).2.1
      have hgame : (traffic.server.recordReport elapsed waiting.report).game.playerCount =
          traffic.server.game.playerCount := by
        rw [Server.recordReport]
      dsimp only
      generalize traffic.server.recordReport elapsed waiting.report = recorded at *
      refine ⟨fun other hother => ?_, waiting.report.players, hplayers, ?_⟩
      · exact (h.pending other (List.mem_of_mem_eraseIdx hother)).of_eq hgame
      · exact (h.pending waiting (List.mem_of_getElem? hwaiting)).of_eq hgame

theorem Gauged.step (h : Gauged traffic) (event : Event) : Gauged (traffic.step event) := by
  cases event with
  | join mapId name => exact h.join mapId name
  | advance time => exact h.advance time
  | record place elapsed => exact h.record place elapsed

theorem Gauged.after (h : Gauged traffic) (events : List Event) :
    Gauged (traffic.after events) := by
  induction events generalizing traffic with
  | nil => exact h
  | cons event events ih => exact ih (h.step event)

/-- In every interleaving that starts from a new server, at every moment, the
gauge of players is right exactly when the count stored last was not outdated
when it was stored. -/
theorem players_eq_iff {maps : List StreetMap} {settings : GameSettings}
    {entropy : Supply UInt64} {tokens : Supply Token}
    (hnew : Game.new maps settings entropy tokens = .ok game) (mode : TickMode)
    (events : List Event)
    (hcount : ((start game mode).after events).server.game.playerCount < 2 ^ 64) :
    ((start game mode).after events).server.metrics.players.toNat =
        ((start game mode).after events).server.game.playerCount ↔
      ((start game mode).after events).outdated = false := by
  have hempty : game.playerCount = 0 := by
    rw [Game.playerCount_eq_sum, Game.sessions_new hnew]
    rfl
  have hstart : Gauged (start game mode) := ⟨List.forall_mem_nil _, 0, rfl, hempty.symm⟩
  obtain ⟨count, hplayers, hcounts⟩ := (hstart.after events).gauge
  rw [hplayers, UInt64.toNat_ofNat_of_lt' (hcounts.le.trans_lt hcount), hcounts.eq_iff]

/-- A step is taken, a player joins, and the report of the step is recorded. -/
def lateRecord : List Event := [.advance ⟨0⟩, .join "town" "Rex", .record 0 ⟨0⟩]

/-- The gauge is wrong after a late record. -/
theorem players_eq_iff_lateRecord :
    let traffic := (start Game.onThreeRoads .external).after lateRecord
    traffic.server.game.playerCount < 2 ^ 64 ∧
      (traffic.server.metrics.players.toNat = traffic.server.game.playerCount ↔
        traffic.outdated = false) := by
  intro traffic
  have hcount : traffic.server.game.playerCount < 2 ^ 64 := by decide +kernel
  exact ⟨hcount, players_eq_iff Game.new_onThreeRoads .external lateRecord hcount⟩

/-- It is not true that the gauge is right whenever no request is under way. -/
theorem players_wrong_when_quiet :
    let traffic := (start Game.onThreeRoads .external).after lateRecord
    traffic.pending.length = 0 ∧ traffic.server.metrics.players = 0 ∧
      traffic.server.game.playerCount = 1 := by
  decide +kernel

end Traffic

end StreetDogs
