import StreetDogs.Duration

/-!
# Surveys

From time to time the clock surveys the game after a tick.  A survey changes
nothing, but it needs the game: while somebody else holds it the survey waits,
and no tick is processed until it has been made.
-/

namespace StreetDogs

/-- When the game was last surveyed, and whether a survey waits for the game. -/
structure Survey where
  /-- The instant of the last survey, or of the start. -/
  last : Duration
  waiting : Bool := false
deriving DecidableEq, Repr

namespace Survey

/-- The least time from one survey to the next. -/
def interval : Duration := .ofMilliseconds 30000

def start (now : Duration) : Survey := { last := now }

/-- After a tick whose step was finished at an instant: a survey is due when the
last one is long enough ago, and counts from that instant even if it has to
wait. -/
def afterTick (survey : Survey) (finished : Duration) : Survey :=
  if interval.nanoseconds ≤ (finished.since survey.last).nanoseconds then
    { last := finished, waiting := true }
  else
    survey

/-- The game is free, so a survey that waits for it is made. -/
def release (survey : Survey) : Survey := { survey with waiting := false }

end Survey

end StreetDogs
