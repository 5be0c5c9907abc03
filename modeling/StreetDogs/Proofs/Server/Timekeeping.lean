import StreetDogs.Clock
import StreetDogs.Proofs.Server.Accounting

/-!
# Timekeeping

A clock and its clients share one server.  A tick has several parts: the time
since the tick before is taken, then the clock waits for the game, advances it
and records the step, and messages may be answered in between.  However late
the ticks are, and whatever else wakes the clock, the times by which it advances
the game add up to exactly the time from its start to the last tick it processed,
and every tick is one step that is recorded once.
-/

namespace StreetDogs

open Api (Request Response ApiError)

namespace Duration

/-- The times between successive instants, the first one since `earlier`. -/
def gaps (earlier : Duration) : List Duration → List Duration
  | [] => []
  | now :: later => now.since earlier :: gaps now later

def total (times : List Duration) : ℕ := (times.map (·.nanoseconds)).sum

def Ordered (instants : List Duration) : Prop :=
  instants.Pairwise (·.nanoseconds ≤ ·.nanoseconds)

instance (instants : List Duration) : Decidable (Ordered instants) :=
  inferInstanceAs (Decidable (List.Pairwise _ _))

theorem length_gaps (earlier : Duration) (instants : List Duration) :
    (gaps earlier instants).length = instants.length := by
  induction instants generalizing earlier with
  | nil => rfl
  | cons now later ih => exact congrArg (· + 1) (ih now)

theorem gaps_concat (earlier : Duration) (instants : List Duration) (now : Duration) :
    gaps earlier (instants ++ [now]) =
      gaps earlier instants ++ [now.since (instants.getLastD earlier)] := by
  induction instants generalizing earlier with
  | nil => rfl
  | cons next later ih =>
      rw [List.cons_append, gaps, ih, gaps, List.cons_append, List.getLastD_cons]

/-- Between ordered instants no time is lost and none is counted twice. -/
theorem add_total_gaps {earlier : Duration} {instants : List Duration}
    (h : Ordered (earlier :: instants)) :
    earlier.nanoseconds + total (gaps earlier instants) =
      (instants.getLastD earlier).nanoseconds := by
  induction instants generalizing earlier with
  | nil => rfl
  | cons now later ih =>
      obtain ⟨hfirst, hrest⟩ := List.pairwise_cons.mp h
      have hle := hfirst now List.mem_cons_self
      rw [List.getLastD_cons, ← ih hrest, gaps, total, List.map_cons, List.sum_cons, total, since]
      dsimp only
      omega

end Duration

namespace Server

variable {server next later : Server} {elapsed : Duration} {message : Message}

def KeepsMode {α : Type} (handling : Handling α) : Prop := ∀ server : Server,
  match handling server with
  | .ok _ next | .error _ next => next.mode = server.mode

namespace KeepsMode

variable {α β : Type}

private theorem bind {first : Handling α} {later : α → Handling β} (h : KeepsMode first)
    (h' : ∀ result, KeepsMode (later result)) : KeepsMode (first >>= later) := by
  intro server
  have hfirst := h server
  cases hresult : first server with
  | error error left =>
      rw [hresult] at hfirst
      rw [bind_of_error hresult]
      exact hfirst
  | ok result next =>
      rw [hresult] at hfirst
      rw [bind_of_ok hresult]
      have hlater := h' result next
      cases hend : later result next with
      | ok _ _ | error _ _ =>
          rw [hend] at hlater
          exact hlater.trans hfirst

private theorem updateGame (update : Update α) : KeepsMode (updateGame update) := by
  intro server
  rw [Server.updateGame]
  cases update server.game with
  | ok result game => rfl
  | error cause game => rfl

private theorem readToken (raw : String) : KeepsMode (readToken raw) := by
  intro server
  rw [readToken_eq]
  cases Token.ofClient? raw with
  | some token => rfl
  | none => rfl

private theorem query (ask : Game → Except GameError α) : KeepsMode (query ask) := by
  intro server
  rw [query_eq]
  cases ask server.game with
  | ok result => rfl
  | error cause => rfl

private theorem tick (elapsed : Duration) (timeDelta : Option Json.Value) :
    KeepsMode (tick elapsed timeDelta) := by
  intro server
  rw [tick_eq]
  cases server.mode.isPeriodic with
  | true => rfl
  | false =>
      cases timeDelta.bind (·.natural?) with
      | some milliseconds => rfl
      | none => rfl

/-- No request changes the mode. -/
theorem dispatch (elapsed : Duration) (request : Request) :
    KeepsMode (dispatch elapsed request) := by
  cases request with
  | getMaps => exact fun _ => rfl
  | getMap id =>
      intro server
      rw [describe_eq]
      cases server.game.findMap? id with
      | some map => rfl
      | none => rfl
  | join mapId name =>
      exact bind (bind (updateGame _) fun _ => bind (fun _ => rfl) fun _ _ => rfl) fun _ _ => rfl
  | listPlayers raw => exact bind (readToken raw) fun _ => bind (query _) fun _ _ => rfl
  | getState raw => exact bind (readToken raw) fun _ => bind (query _) fun _ _ => rfl
  | setDirection raw code =>
      refine bind (readToken raw) fun token => ?_
      cases Heading.ofCode code with
      | ok heading => exact bind (updateGame _) fun _ _ => rfl
      | error cause => exact fun _ => rfl
  | tick timeDelta => exact bind (tick elapsed timeDelta) fun _ _ => rfl

end KeepsMode

private theorem handle_mode (server : Server) (elapsed : Duration) (request : Request) :
    (server.handle elapsed request).2.mode = server.mode := by
  have hmode := KeepsMode.dispatch elapsed request server.countRequest
  rw [handle]
  cases hdispatch : dispatch elapsed request server.countRequest with
  | ok _ _ | error _ _ =>
      rw [hdispatch] at hmode
      exact hmode

theorem receive_mode (server : Server) (elapsed : Duration) (message : Message) :
    (server.receive elapsed message).2.mode = server.mode := by
  cases message with
  | typed request => exact handle_mode server elapsed request
  | text body =>
      rw [receive, handleText]
      cases Request.parse body with
      | ok request => exact handle_mode server elapsed request
      | error fault => rfl

/-- A step that a client asks for is taken only if no clock takes the steps and
the time is a number of milliseconds. -/
private theorem of_handle_tick {timeDelta : Option Json.Value} {response : Response}
    (h : (server.handle elapsed (.tick timeDelta)).1 = .ok response) :
    server.mode.isPeriodic = false ∧ ∃ n, timeDelta.bind (·.natural?) = some n := by
  have htick := tick_eq elapsed timeDelta server.countRequest
  have hrefused {error : ApiError}
      (herror : tick elapsed timeDelta server.countRequest = .error error server.countRequest) :
      (server.handle elapsed (.tick timeDelta)).1 = .error error := by
    rw [handle, dispatch, bind_of_error herror]
  cases hmode : server.mode.isPeriodic with
  | true =>
      have hperiodic : server.countRequest.mode.isPeriodic = true := hmode
      rw [if_pos hperiodic] at htick
      rw [hrefused htick] at h
      cases h
  | false =>
      have hexternal : ¬ server.countRequest.mode.isPeriodic = true := Bool.eq_false_iff.mp hmode
      rw [if_neg hexternal] at htick
      cases hdelta : timeDelta.bind (·.natural?) with
      | some n => exact ⟨rfl, n, rfl⟩
      | none =>
          simp only [hdelta] at htick
          rw [hrefused htick] at h
          cases h

/-- A step is counted for a message that asks for one with success, and in
periodic mode there is no such message. -/
theorem receive_tickCount (server : Server) (elapsed : Duration) (message : Message) :
    (server.receive elapsed message).2.metrics.tickCount = server.metrics.tickCount +
        .ofNat ([⟨server.game, message, (server.receive elapsed message).1⟩].countP
          (Exchange.isSuccess .tick)) ∧
      (server.mode.isPeriodic = true →
        Exchange.isSuccess .tick ⟨server.game, message, (server.receive elapsed message).1⟩ =
          false) := by
  rw [List.countP_singleton]
  cases hread : message.read with
  | error fault =>
      have hfailed (answer : Except ApiError Response) :
          Exchange.isSuccess .tick ⟨server.game, message, answer⟩ = false := by
        rw [Exchange.isSuccess]
        simp only [hread]
      rw [hfailed]
      refine ⟨?_, fun _ => rfl⟩
      cases message with
      | typed request => cases hread
      | text body =>
          have hparse : Request.parse body = .error fault := hread
          rw [receive, handleText, hparse]
          exact (UInt64.add_zero _).symm
  | ok request =>
      rw [receive_of_read hread]
      rcases handle_records elapsed request server with
        ⟨response, hanswer, hmetrics⟩ | ⟨error, hanswer, hmetrics⟩
      · rw [hanswer, Tallied.isSuccess_of_read hread, hmetrics]
        cases request with
        | tick timeDelta =>
            obtain ⟨hmode, n, hdelta⟩ := of_handle_tick hanswer
            simp only [recorded, hdelta]
            refine ⟨(Metrics.recordAdvance_counts _ _ _).2.2.1, fun hperiodic => ?_⟩
            rw [hmode] at hperiodic
            cases hperiodic
        | getMaps | getMap _ | join _ _ | listPlayers _ | getState _ | setDirection _ _ =>
            exact ⟨(UInt64.add_zero _).symm, fun _ => rfl⟩
      · have hfailed : Exchange.isSuccess .tick
            ⟨server.game, message, (server.handle elapsed request).1⟩ = false := by
          rw [Exchange.isSuccess, hanswer]
          simp only [hread]
        rw [hfailed, hmetrics]
        exact ⟨(UInt64.add_zero _).symm, fun _ => rfl⟩

/-- What a server does while a clock advances its game by the times given and
the messages of the exchanges are answered. -/
structure Worked (server : Server) (times : List Duration) (exchanges : List Exchange)
    (next : Server) : Prop where
  mode : next.mode = server.mode
  /-- Every step is counted once, those of the clock and those clients asked for. -/
  tickCount : next.metrics.tickCount = server.metrics.tickCount +
    .ofNat (times.length + exchanges.countP (Exchange.isSuccess .tick))
  /-- Clients ask for steps in vain when a clock takes them. -/
  refused : server.mode.isPeriodic = true → exchanges.countP (Exchange.isSuccess .tick) = 0
  /-- Then the game is advanced by the times of the clock and by no others. -/
  operations : server.game.Consistent → server.mode.isPeriodic = true →
    (∀ exchange ∈ exchanges, exchange.answer ≠ .error (.game .tokensExhausted)) →
    ∃ operations, next.game = server.game.after operations ∧
      operations.filterMap Operation.time? = times

namespace Worked

variable {times more : List Duration} {exchanges others : List Exchange}

theorem refl (server : Server) : Worked server [] [] server where
  mode := rfl
  tickCount := (UInt64.add_zero _).symm
  refused _ := rfl
  operations _ _ _ := ⟨[], rfl, rfl⟩

theorem trans (h : Worked server times exchanges next) (h' : Worked next more others later) :
    Worked server (times ++ more) (exchanges ++ others) later where
  mode := h'.mode.trans h.mode
  tickCount := by
    rw [h'.tickCount, h.tickCount, UInt64.add_assoc, ← UInt64.ofNat_add, List.length_append,
      List.countP_append]
    congr 2
    omega
  refused hmode := by
    rw [List.countP_append, h.refused hmode, h'.refused (h.mode ▸ hmode)]
  operations hgame hmode hanswered := by
    obtain ⟨operations, hnext, htimes⟩ := h.operations hgame hmode fun exchange hmem =>
      hanswered exchange (List.mem_append_left _ hmem)
    obtain ⟨operations', hlater, htimes'⟩ := h'.operations (hnext ▸ hgame.after operations)
      (h.mode ▸ hmode) fun exchange hmem => hanswered exchange (List.mem_append_right _ hmem)
    refine ⟨operations ++ operations', ?_, ?_⟩
    · rw [hlater, hnext, Game.after_append]
    · rw [List.filterMap_append, htimes, htimes']

private theorem receive (server : Server) (elapsed : Duration) (message : Message) :
    Worked server [] [⟨server.game, message, (server.receive elapsed message).1⟩]
      (server.receive elapsed message).2 where
  mode := server.receive_mode elapsed message
  tickCount := by
    rw [List.length_nil, Nat.zero_add]
    exact (server.receive_tickCount elapsed message).1
  refused hmode := by
    rw [List.countP_singleton, (server.receive_tickCount elapsed message).2 hmode]
    rfl
  operations hgame hmode hanswered := by
    obtain ⟨operations, hnext, htimes⟩ :=
      after_of_receive hgame (hanswered _ (List.mem_singleton_self _))
    exact ⟨operations, hnext, htimes hmode⟩

theorem converse (server : Server) (calls : List Call) :
    Worked server [] (server.converse calls).1 (server.converse calls).2 := by
  induction calls generalizing server with
  | nil => exact refl server
  | cons call calls ih => exact (receive server call.elapsed call.message).trans (ih _)

/-- A step of the clock, whose report is recorded after further messages. -/
theorem tick (server : Server) (time elapsed : Duration)
    (h : Worked (server.advanceGame time).2 [] exchanges next) :
    Worked server [time] exchanges (next.recordReport elapsed (server.advanceGame time).1) where
  mode := by
    rw [recordReport]
    exact h.mode
  tickCount := by
    have hkept : (server.advanceGame time).2.metrics.tickCount = server.metrics.tickCount := rfl
    rw [recordReport, (Metrics.recordAdvance_counts _ _ _).2.2.1, h.tickCount, hkept,
      UInt64.add_assoc, List.length_nil, List.length_singleton, Nat.zero_add, Nat.add_comm 1,
      UInt64.ofNat_add]
    rfl
  refused := h.refused
  operations hgame hmode hanswered := by
    obtain ⟨operations, hnext, htimes⟩ :=
      h.operations (hgame.after [.advance time]) hmode hanswered
    refine ⟨.advance time :: operations, ?_, ?_⟩
    · rw [recordReport]
      exact hnext
    · rw [List.filterMap_cons, htimes]
      rfl

end Worked

end Server

/-! ## Runs of a clock -/

/-- What happens to a server with a clock.  Messages are answered between the
ticks, but also while a tick waits for the game, and while its step is still to
be recorded. -/
inductive ClockEvent where
  | tick (now : Duration) (waiting recording : List Call) (elapsed : Duration)
  /-- The shutdown flag is set to this value. -/
  | shutdown (requested : Bool)
  /-- The owner of the shutdown flag is gone. -/
  | abandoned
  | call (call : Call)

namespace ClockEvent

def stops : ClockEvent → Bool
  | shutdown requested => requested
  | abandoned => true
  | tick _ _ _ _ | call _ => false

/-- The instants of the ticks that are processed, which are those before the
clock has to stop. -/
def ticks : List ClockEvent → List Duration
  | [] => []
  | tick now _ _ _ :: events => now :: ticks events
  | call _ :: events | shutdown false :: events => ticks events
  | shutdown true :: _ | abandoned :: _ => []

/-- What comes after the clock had to stop is no tick any more. -/
theorem ticks_append_stop {stop : ClockEvent} (h : stop.stops = true)
    (events later : List ClockEvent) : ticks (events ++ stop :: later) = ticks events := by
  induction events with
  | nil =>
      cases stop with
      | shutdown requested =>
          obtain rfl : requested = true := h
          rfl
      | abandoned => rfl
      | tick _ _ _ _ | call _ => cases h
  | cons event events ih =>
      cases event with
      | tick now _ _ _ => exact congrArg (now :: ·) ih
      | call _ => exact ih
      | shutdown requested =>
          cases requested with
          | false => exact ih
          | true => rfl
      | abandoned => rfl

end ClockEvent

/-- A server with a clock, and what an observer remembers. -/
structure ClockRun where
  clocked : ClockedServer
  /-- The times by which the clock has advanced the game, in order. -/
  times : List Duration := []
  /-- The messages answered, in order. -/
  exchanges : List Exchange := []

namespace ClockRun

def start (server : Server) (now : Duration) : ClockRun := { clocked := ⟨server, .start now⟩ }

def answer (run : ClockRun) (calls : List Call) : ClockRun where
  clocked := ⟨(run.clocked.server.converse calls).2, run.clocked.clock⟩
  times := run.times
  exchanges := run.exchanges ++ (run.clocked.server.converse calls).1

/-- Advances the game by a time taken at a tick, and records the step after
further messages have been answered. -/
def advance (run : ClockRun) (time : Duration) (recording : List Call) (elapsed : Duration) :
    ClockRun :=
  let (report, server) := run.clocked.server.advanceGame time
  let run := answer ⟨⟨server, run.clocked.clock⟩, run.times ++ [time], run.exchanges⟩ recording
  { run with clocked := ⟨run.clocked.server.recordReport elapsed report, run.clocked.clock⟩ }

def step (run : ClockRun) : ClockEvent → ClockRun
  | .tick now waiting recording elapsed =>
    match run.clocked.clock.wake (.tick now) with
    | (some time, clock) =>
      ({ run with clocked := ⟨run.clocked.server, clock⟩ }.answer waiting).advance time recording
        elapsed
    | (none, clock) =>
      ({ run with clocked := ⟨run.clocked.server, clock⟩ }.answer waiting).answer recording
  | .shutdown requested =>
    { run with clocked := run.clocked.wake (.shutdown requested) .zero }
  | .abandoned => { run with clocked := run.clocked.wake .abandoned .zero }
  | .call call => run.answer [call]

def after (run : ClockRun) (events : List ClockEvent) : ClockRun := events.foldl step run

variable {run : ClockRun} {server : Server} {started : Duration} {instants : List Duration}

theorem after_append (run : ClockRun) (events later : List ClockEvent) :
    run.after (events ++ later) = (run.after events).after later := List.foldl_append

/-- Setting the flag to false changes nothing. -/
theorem step_unrequested (run : ClockRun) : run.step (.shutdown false) = run := by
  rw [step, ClockedServer.wake, Clock.wake]
  split_ifs
  · rfl
  · rfl

/-- A run in which the clock that was started on the server has processed ticks
at the instants given. -/
structure Keeps (server : Server) (started : Duration) (instants : List Duration)
    (run : ClockRun) : Prop where
  times : run.times = Duration.gaps started instants
  lastTick : run.clocked.clock.lastTick = instants.getLastD started
  worked : server.Worked run.times run.exchanges run.clocked.server

namespace Keeps

theorem start (server : Server) (started : Duration) :
    Keeps server started [] (ClockRun.start server started) where
  times := rfl
  lastTick := rfl
  worked := .refl server

variable (h : Keeps server started instants run)
include h

theorem answer (calls : List Call) : Keeps server started instants (run.answer calls) where
  times := h.times
  lastTick := h.lastTick
  worked := by
    have hworked := h.worked.trans (.converse run.clocked.server calls)
    rw [List.append_nil] at hworked
    exact hworked

/-- The time of a tick is measured from the tick before, whatever was answered
in the meantime. -/
theorem tick (hrunning : run.clocked.clock.running = true) (now : Duration)
    (waiting recording : List Call) (elapsed : Duration) :
    Keeps server started (instants ++ [now])
      (run.step (.tick now waiting recording elapsed)) := by
  have hanswered := h.answer waiting
  rw [step, Clock.wake, if_pos hrunning]
  exact
    { times := by
        rw [Duration.gaps_concat, ← h.lastTick, ← h.times]
        rfl
      lastTick := List.getLastD_concat.symm
      worked := hanswered.worked.trans (.tick _ _ elapsed (.converse _ recording)) }

/-- A clock that has stopped stays as it is. -/
theorem step_stopped (hstopped : run.clocked.clock.running = false) (event : ClockEvent) :
    Keeps server started instants (run.step event) ∧
      (run.step event).clocked.clock.running = false := by
  have hneg : ¬ run.clocked.clock.running = true := Bool.eq_false_iff.mp hstopped
  cases event with
  | tick now waiting recording elapsed =>
      rw [step, Clock.wake, if_neg hneg]
      exact ⟨(h.answer waiting).answer recording, hstopped⟩
  | shutdown _ | abandoned =>
      rw [step, ClockedServer.wake, Clock.wake.eq_def, if_neg hneg]
      exact ⟨h, hstopped⟩
  | call call => exact ⟨h.answer [call], hstopped⟩

theorem stop (hrunning : run.clocked.clock.running = true) {event : ClockEvent}
    (hstops : event.stops = true) :
    Keeps server started instants (run.step event) ∧
      (run.step event).clocked.clock.running = false := by
  cases event with
  | shutdown requested =>
      obtain rfl : requested = true := hstops
      rw [step, ClockedServer.wake, Clock.wake, if_pos hrunning]
      exact ⟨⟨h.times, h.lastTick, h.worked⟩, rfl⟩
  | abandoned =>
      rw [step, ClockedServer.wake, Clock.wake, if_pos hrunning]
      exact ⟨⟨h.times, h.lastTick, h.worked⟩, rfl⟩
  | tick _ _ _ _ | call _ => cases hstops

theorem after_stopped (hstopped : run.clocked.clock.running = false)
    (events : List ClockEvent) : Keeps server started instants (run.after events) := by
  induction events generalizing run with
  | nil => exact h
  | cons event events ih =>
      obtain ⟨hstep, hstill⟩ := h.step_stopped hstopped event
      exact ih hstep hstill

/-- The instants of the ticks of a run are those of the events up to the first
one that stops the clock. -/
theorem after (hrunning : run.clocked.clock.running = true) (events : List ClockEvent) :
    Keeps server started (instants ++ ClockEvent.ticks events) (run.after events) := by
  induction events generalizing run instants with
  | nil =>
      rw [ClockEvent.ticks, List.append_nil]
      exact h
  | cons event events ih =>
      have hstop (hstops : event.stops = true) :
          Keeps server started (instants ++ []) (run.after (event :: events)) := by
        obtain ⟨hstep, hstopped⟩ := h.stop hrunning hstops
        rw [List.append_nil]
        exact hstep.after_stopped hstopped events
      cases event with
      | tick now waiting recording elapsed =>
          have hticked := h.tick hrunning now waiting recording elapsed
          have hstill : (run.step (.tick now waiting recording elapsed)).clocked.clock.running =
              true := by
            rw [step, Clock.wake, if_pos hrunning]
            exact hrunning
          rw [ClockEvent.ticks, ← List.singleton_append, ← List.append_assoc]
          exact ih hticked hstill
      | call call => exact ih (h.answer [call]) hrunning
      | shutdown requested =>
          cases requested with
          | true => exact hstop rfl
          | false =>
              have hsame : run.after (.shutdown false :: events) = run.after events :=
                congrArg (after · events) run.step_unrequested
              rw [hsame]
              exact ih h hrunning
      | abandoned => exact hstop rfl

end Keeps

/-- What a clock that is started on a server does in a run of events. -/
structure KeepsTime (server : Server) (started : Duration) (events : List ClockEvent)
    (run : ClockRun) : Prop where
  /-- Every tick advances the game by the time since the tick before. -/
  times : run.times = Duration.gaps started (ClockEvent.ticks events)
  /-- No time is lost and none is counted twice. -/
  total_eq : started.nanoseconds + Duration.total run.times =
    ((ClockEvent.ticks events).getLastD started).nanoseconds
  /-- The game is advanced once at every tick. -/
  length_eq : run.times.length = (ClockEvent.ticks events).length
  /-- Every tick is recorded once, beside the steps that clients asked for. -/
  tickCount : run.clocked.server.metrics.tickCount = server.metrics.tickCount +
    .ofNat ((ClockEvent.ticks events).length +
      run.exchanges.countP (Exchange.isSuccess .tick))
  /-- In periodic mode clients ask for steps in vain. -/
  refused : server.mode.isPeriodic = true →
    run.exchanges.countP (Exchange.isSuccess .tick) = 0
  /-- In periodic mode nothing but the clock advances the game. -/
  operations : server.mode.isPeriodic = true →
    (∀ exchange ∈ run.exchanges, exchange.answer ≠ .error (.game .tokensExhausted)) →
    ∃ operations, run.clocked.server.game = server.game.after operations ∧
      operations.filterMap Operation.time? = run.times
  /-- Setting the flag to false changes nothing. -/
  spurious : ∀ before later, events = before ++ .shutdown false :: later →
    run = (ClockRun.start server started).after (before ++ later)
  /-- Once the clock had to stop the game is not advanced any more. -/
  stopped : ∀ before stop later, events = before ++ stop :: later → stop.stops = true →
    run.times = ((ClockRun.start server started).after before).times

/-- In every run of a clock on a server, however late its ticks are, whatever
else wakes it and whatever is asked of the server in between, the times by which
it advances the game add up to the time from its start to its last tick. -/
theorem keepsTime_after {maps : List StreetMap} {settings : GameSettings}
    {entropy : Supply UInt64} {tokens : Supply Token} {first : Game}
    (hnew : Game.new maps settings entropy tokens = .ok first)
    {earlier : List Operation} (hgame : server.game = first.after earlier)
    {events : List ClockEvent}
    (hordered : Duration.Ordered (started :: ClockEvent.ticks events)) :
    KeepsTime server started events ((start server started).after events) := by
  have hkeeps (events : List ClockEvent) :
      Keeps server started (ClockEvent.ticks events) ((start server started).after events) :=
    (Keeps.start server started).after rfl events
  have hworked := (hkeeps events).worked
  have hlength : ((start server started).after events).times.length =
      (ClockEvent.ticks events).length := by
    rw [(hkeeps events).times, Duration.length_gaps]
  have hconsistent : server.game.Consistent :=
    hgame ▸ (Game.consistent_new hnew).after earlier
  exact
    { times := (hkeeps events).times
      total_eq := by rw [(hkeeps events).times, Duration.add_total_gaps hordered]
      length_eq := hlength
      tickCount := hlength ▸ hworked.tickCount
      refused := hworked.refused
      operations := hworked.operations hconsistent
      spurious := by
        rintro before later rfl
        rw [after_append, after_append]
        exact congrArg (after · later) (step_unrequested _)
      stopped := by
        rintro before stop later rfl hstops
        rw [(hkeeps _).times, (hkeeps before).times, ClockEvent.ticks_append_stop hstops] }

/-- A tick while a player joins, the flag set to false, a late tick whose record
has to wait for a request for a step, a stop, and a tick after it. -/
def disturbedEvents : List ClockEvent := [
  .tick (.ofMilliseconds 1050) [⟨.typed (.join "town" "Rex"), ⟨0⟩⟩] [] ⟨0⟩,
  .shutdown false,
  .call ⟨.text "!", ⟨0⟩⟩,
  .tick (.ofMilliseconds 1380) [] [⟨.typed (.tick (some (.int 1000))), ⟨0⟩⟩] ⟨0⟩,
  .shutdown true,
  .tick (.ofMilliseconds 1400) [] [] ⟨0⟩]

/-- A clock that starts at one second advances the game by 50 and by 330
milliseconds. -/
theorem keepsTime_after_disturbedEvents :
    let server : Server := { game := Game.onThreeRoads, mode := .periodic (.ofMilliseconds 50) }
    let run := (start server (.ofMilliseconds 1000)).after disturbedEvents
    run.times = [.ofMilliseconds 50, .ofMilliseconds 330] ∧
      run.clocked.server.metrics.tickCount = 2 ∧
      (∀ exchange ∈ run.exchanges, exchange.answer ≠ .error (.game .tokensExhausted)) ∧
      Duration.Ordered (.ofMilliseconds 1000 :: ClockEvent.ticks disturbedEvents) ∧
      KeepsTime server (.ofMilliseconds 1000) disturbedEvents run := by
  intro server run
  have hordered : Duration.Ordered
      (.ofMilliseconds 1000 :: ClockEvent.ticks disturbedEvents) := by decide
  have hgame : server.game = Game.onThreeRoads.after [] := rfl
  exact ⟨by decide +kernel, by decide +kernel, by decide +kernel, hordered,
    keepsTime_after Game.new_onThreeRoads hgame hordered⟩

end ClockRun

end StreetDogs
