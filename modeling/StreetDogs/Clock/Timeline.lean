import StreetDogs.Clock
import StreetDogs.Clock.Schedule
import StreetDogs.Clock.Survey

/-!
# Timelines

A server in simulated time.  Time passes only in waits, in whole milliseconds,
and the clock starts with the first wait.  A wait either lets the clock run or
holds the game, so that the clock has to wait for it.
-/

namespace StreetDogs

/-- A server whose clock has been started, with the ticks and surveys to come. -/
structure Ticking where
  clocked : ClockedServer
  schedule : Schedule
  survey : Survey

namespace Ticking

def start (server : Server) (period : Period) (now : Duration) : Ticking where
  clocked := ⟨server, .start now⟩
  schedule := .start period now
  survey := .start now

/-- The instant at which the next tick is processed when time has come to `now`. -/
def instant (ticking : Ticking) (now : Duration) : Duration :=
  if now.nanoseconds < ticking.schedule.due.nanoseconds then
    ticking.schedule.due.upToMillisecond
  else
    now

def isDue (ticking : Ticking) (finish : Duration) : Bool :=
  decide (ticking.schedule.due.nanoseconds ≤ finish.nanoseconds)

/-- The tick due is processed at `now`, and its step is finished after the time
`elapsed`. -/
def tick (ticking : Ticking) (now elapsed : Duration) : Ticking where
  clocked := ticking.clocked.wake (.tick now) elapsed
  schedule := ticking.schedule.tick now
  survey := ticking.survey.afterTick (now + elapsed)

def release (ticking : Ticking) : Ticking := { ticking with survey := ticking.survey.release }

/-- Processes the ticks that are due until `finish` while the game is free. -/
def runUntil (finish now : Duration) (ticking : Ticking) : Ticking :=
  if _h : ticking.isDue finish = true then
    let instant := ticking.instant now
    runUntil finish instant (ticking.tick instant .zero).release
  else
    ticking
termination_by finish.nanoseconds + 1 - ticking.schedule.due.nanoseconds
decreasing_by
  have hdue := of_decide_eq_true ‹ticking.isDue finish = true›
  have hlater := ticking.schedule.due_lt_tick (ticking.instant now)
  simp only [tick, release]
  omega

/-- Processes what happens until `finish` while the game is held.  A survey that
waits goes on waiting, and then nothing else happens.  Otherwise the first tick
that falls due is processed on time, but its step is made when the game is let
go, and recorded as having taken until then; the ticks missed meanwhile are left
for later. -/
def holdUntil (finish now : Duration) (ticking : Ticking) : Ticking :=
  if ticking.survey.waiting then
    ticking.release
  else if ticking.isDue finish then
    let instant := ticking.instant now
    ticking.tick instant (finish.since instant)
  else
    ticking

end Ticking

inductive TimelineClock where
  | absent
  /-- It starts with the first wait. -/
  | pending (period : Period)
  | started (clock : Clock) (schedule : Schedule) (survey : Survey)

structure Timeline where
  server : Server
  now : Duration := .zero
  clock : TimelineClock := .absent

namespace Timeline

def start (server : Server) (clocked : Bool) : Timeline :=
  match server.mode with
  | .periodic length =>
    match if clocked then Period.ofDuration? length else none with
    | some period => { server, clock := .pending period }
    | none => { server }
  | .external => { server }

def isRunning (timeline : Timeline) : Bool :=
  match timeline.clock with
  | .absent => false
  | .pending _ => true
  | .started clock _ _ => clock.running

/-- The clock of a timeline, started if it was not, unless it does not run. -/
def ticking? (timeline : Timeline) : Option Ticking :=
  match timeline.clock with
  | .absent => none
  | .pending period => some (.start timeline.server period timeline.now)
  | .started clock schedule survey =>
    if clock.running then some ⟨⟨timeline.server, clock⟩, schedule, survey⟩ else none

/-- Waits for some time, in which the clock does what `passing` says of the
instants of the end and of the start. -/
def wait (timeline : Timeline) (time : Duration)
    (passing : Duration → Duration → Ticking → Ticking) : Timeline :=
  let finish := timeline.now + time
  match timeline.ticking? with
  | none => { timeline with now := finish }
  | some ticking =>
    let ⟨⟨server, clock⟩, schedule, survey⟩ := passing finish timeline.now ticking
    ⟨server, finish, .started clock schedule survey⟩

def sleep (timeline : Timeline) (time : Duration) : Timeline :=
  timeline.wait time fun finish now ticking => ticking.release.runUntil finish now

def hold (timeline : Timeline) (time : Duration) : Timeline :=
  timeline.wait time fun finish now ticking => ticking.holdUntil finish now

def stop (timeline : Timeline) : Timeline :=
  match timeline.clock with
  | .absent => timeline
  | .pending _ => { timeline with clock := .absent }
  | .started clock schedule survey =>
    { timeline with clock := .started (clock.wake (.shutdown true)).2 schedule survey }

end Timeline

end StreetDogs
