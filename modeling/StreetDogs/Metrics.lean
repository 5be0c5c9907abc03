import StreetDogs.Game

/-!
# Metrics

Counters and gauges of a running game.  Counters have 64 bits and start again
at zero after their greatest value.  The times of the last thousand ticks are
kept for percentiles, which are published from the tenth tick on.
-/

namespace StreetDogs

structure Metrics where
  sessions : UInt64 := 0
  players : UInt64 := 0
  /-- Times of ticks in microseconds. -/
  tickTime : UInt64 := 0
  tickTimeP95 : UInt64 := 0
  tickTimeP99 : UInt64 := 0
  tickTimeMax : UInt64 := 0
  tickCount : UInt64 := 0
  /-- Dogs that could not move, over all ticks. -/
  dogFailures : UInt64 := 0
  joins : UInt64 := 0
  requests : UInt64 := 0
  requestErrors : UInt64 := 0
  internalFaults : UInt64 := 0
  /-- The times of the latest ticks, oldest first. -/
  history : List UInt64 := []
deriving DecidableEq, Repr

namespace Metrics

/-- The number of ticks whose times are kept. -/
def historyLimit : Nat := 1000

/-- The number of ticks needed for percentiles. -/
def percentileMinimum : Nat := 10

/-- Appends a time and drops the oldest beyond the limit. -/
def remember (history : List UInt64) (time : UInt64) : List UInt64 :=
  let longer := history ++ [time]
  longer.drop (longer.length - historyLimit)

/-- The place of a percentile among `count` sorted values: a product of
binary32 numbers without its fraction. -/
def percentileIndex (count : Nat) (share : Float32) : Nat :=
  (Float32.ofNat count * share).toUInt64.toNat

def percentile (sorted : List UInt64) (share : Float32) : UInt64 :=
  sorted[min (percentileIndex sorted.length share) (sorted.length - 1)]?.getD 0

/-- Publishes the percentiles of the times kept, if there are enough. -/
def publish (metrics : Metrics) : Metrics :=
  if percentileMinimum ≤ metrics.history.length then
    let sorted := metrics.history.mergeSort
    { metrics with
      tickTimeP95 := percentile sorted 0.95
      tickTimeP99 := percentile sorted 0.99
      tickTimeMax := sorted.getLast?.getD 0 }
  else
    metrics

def recordTickTime (metrics : Metrics) (time : Duration) : Metrics :=
  publish { metrics with
    tickTime := time.inMicroseconds
    tickCount := metrics.tickCount + 1
    history := remember metrics.history time.inMicroseconds }

/-- Records a finished step of the game and the time it took. -/
def recordAdvance (metrics : Metrics) (time : Duration) (report : AdvanceReport) : Metrics :=
  let metrics := metrics.recordTickTime time
  { metrics with
    players := report.players.toUInt64
    dogFailures := metrics.dogFailures + report.failures.toUInt64 }

def setPopulation (metrics : Metrics) (sessions players : Nat) : Metrics :=
  { metrics with sessions := sessions.toUInt64, players := players.toUInt64 }

def recordRequest (metrics : Metrics) : Metrics :=
  { metrics with requests := metrics.requests + 1 }

def recordRequestError (metrics : Metrics) (internal : Bool) : Metrics :=
  { metrics with
    requestErrors := metrics.requestErrors + 1
    internalFaults := if internal then metrics.internalFaults + 1 else metrics.internalFaults }

def recordJoin (metrics : Metrics) : Metrics := { metrics with joins := metrics.joins + 1 }

end Metrics

end StreetDogs
