import StreetDogs.Server

/-!
# The clock

In periodic mode a clock moves the game on.  Every tick advances the game by
the time since the tick before, or since the start, so the steps of the game
add up to the time that has passed however late single ticks are.  The clock
stops for good when it is asked to, or when nobody is left who could ask.
-/

namespace StreetDogs

inductive Wake where
  /-- A tick is processed at this instant. -/
  | tick (now : Duration)
  /-- The shutdown flag is set to this value. -/
  | shutdown (requested : Bool)
  /-- The owner of the shutdown flag is gone. -/
  | abandoned
deriving DecidableEq, Repr

/-- A clock that was started at some instant. -/
structure Clock where
  /-- The instant of the last tick, or of the start. -/
  lastTick : Duration
  running : Bool := true
deriving DecidableEq, Repr

namespace Clock

def start (now : Duration) : Clock := { lastTick := now }

/-- The clock after waking, and the time to advance the game by if it ticked. -/
def wake (clock : Clock) (cause : Wake) : Option Duration × Clock :=
  if clock.running then
    match cause with
    | .tick now => (some (now.since clock.lastTick), { clock with lastTick := now })
    | .shutdown false => (none, clock)
    | .shutdown true | .abandoned => (none, { clock with running := false })
  else
    (none, clock)

end Clock

/-- A server and the clock that moves its game on. -/
structure ClockedServer where
  server : Server
  clock : Clock

/-- Wakes the clock and makes the step it asks for, which takes the time
`elapsed`. -/
def ClockedServer.wake (clocked : ClockedServer) (cause : Wake) (elapsed : Duration) :
    ClockedServer :=
  match clocked.clock.wake cause with
  | (some time, clock) => ⟨clocked.server.advance time elapsed, clock⟩
  | (none, clock) => { clocked with clock }

end StreetDogs
