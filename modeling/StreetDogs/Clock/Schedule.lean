import StreetDogs.Duration

/-!
# Schedules of ticks

Ticks are due at the start and then once a period.  A tick that comes late is
not made up for: the missed ones are skipped, and the next tick is due at the
next multiple of the period.
-/

namespace StreetDogs

/-- The time from one tick to the next, which is not zero. -/
structure Period where
  length : Duration
  positive : 0 < length.nanoseconds

def Period.ofDuration? (length : Duration) : Option Period :=
  if positive : 0 < length.nanoseconds then some ⟨length, positive⟩ else none

/-- The period and the instant at which the next tick is due. -/
structure Schedule where
  period : Period
  due : Duration

namespace Schedule

def start (period : Period) (now : Duration) : Schedule := ⟨period, now⟩

/-- A tick that is no later than this counts as being on time. -/
def tolerance : Duration := .ofMilliseconds 5

def following (schedule : Schedule) (now : Duration) : Duration :=
  let period := schedule.period.length.nanoseconds
  let due := schedule.due.nanoseconds
  if due + tolerance.nanoseconds < now.nanoseconds then
    ⟨now.nanoseconds + (period - (now.nanoseconds - due) % period)⟩
  else
    ⟨due + period⟩

def tick (schedule : Schedule) (now : Duration) : Schedule :=
  { schedule with due := schedule.following now }

/-- Every tick is due later than the one before. -/
theorem due_lt_tick (schedule : Schedule) (now : Duration) :
    schedule.due.nanoseconds < (schedule.tick now).due.nanoseconds := by
  have hpositive := schedule.period.positive
  have hremainder := Nat.mod_lt (now.nanoseconds - schedule.due.nanoseconds) hpositive
  simp only [tick, following]
  split
  · simp only; omega
  · simp only; omega

end Schedule

end StreetDogs
