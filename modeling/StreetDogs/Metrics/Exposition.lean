import StreetDogs.Metrics
import StreetDogs.Json.Value

/-!
# Exposition of metrics

The two texts in which metrics are published: one line per sample with its
description, and one object.
-/

namespace StreetDogs.Metrics

open Json (Value)

inductive SampleKind where
  | gauge
  | counter
deriving DecidableEq, Repr

def SampleKind.name : SampleKind → String
  | gauge => "gauge"
  | counter => "counter"

structure Sample where
  name : String
  help : String
  kind : SampleKind
  value : Nat
deriving DecidableEq, Repr

def Sample.text (sample : Sample) : String :=
  let name := sample.name
  s!"# HELP {name} {sample.help}\n# TYPE {name} {sample.kind.name}\n{name} {sample.value}\n"

/-- All samples in order; `uptime` is the age of the server in seconds. -/
def samples (metrics : Metrics) (uptime : Nat) : List Sample := [
  ⟨"dog_patrol_sessions", "Number of active sessions", .gauge, metrics.sessions.toNat⟩,
  ⟨"dog_patrol_players", "Number of joined players", .gauge, metrics.players.toNat⟩,
  ⟨"dog_patrol_tick_time_microseconds", "Last tick time in microseconds", .gauge,
    metrics.tickTime.toNat⟩,
  ⟨"dog_patrol_tick_time_p95_microseconds", "95th percentile tick time", .gauge,
    metrics.tickTimeP95.toNat⟩,
  ⟨"dog_patrol_tick_time_p99_microseconds", "99th percentile tick time", .gauge,
    metrics.tickTimeP99.toNat⟩,
  ⟨"dog_patrol_tick_time_max_microseconds", "Maximum tick time", .gauge,
    metrics.tickTimeMax.toNat⟩,
  ⟨"dog_patrol_tick_count", "Total ticks processed", .counter, metrics.tickCount.toNat⟩,
  ⟨"dog_patrol_dog_failures_total", "Dogs that failed to move", .counter,
    metrics.dogFailures.toNat⟩,
  ⟨"dog_patrol_joins_total", "Total successful joins", .counter, metrics.joins.toNat⟩,
  ⟨"dog_patrol_requests_total", "Total requests handled", .counter, metrics.requests.toNat⟩,
  ⟨"dog_patrol_request_errors_total", "Requests that returned an error", .counter,
    metrics.requestErrors.toNat⟩,
  ⟨"dog_patrol_internal_faults_total", "Errors caused by broken game invariants", .counter,
    metrics.internalFaults.toNat⟩,
  ⟨"dog_patrol_uptime_seconds", "Server uptime in seconds", .counter, uptime⟩]

def exposition (metrics : Metrics) (uptime : Nat) : String :=
  String.join ((metrics.samples uptime).map Sample.text)

/-- The metrics as an object, its members in ascending order. -/
def toJson (metrics : Metrics) (uptime : Nat) : Value :=
  let count (n : UInt64) : Value := .int n.toNat
  .object [
    ("game", .object [
      ("players", count metrics.players),
      ("sessions", count metrics.sessions)]),
    ("performance", .object [
      ("dog_failures", count metrics.dogFailures),
      ("tick_count", count metrics.tickCount),
      ("tick_time_max_us", count metrics.tickTimeMax),
      ("tick_time_p95_us", count metrics.tickTimeP95),
      ("tick_time_p99_us", count metrics.tickTimeP99),
      ("tick_time_us", count metrics.tickTime)]),
    ("requests", .object [
      ("errors", count metrics.requestErrors),
      ("internal_faults", count metrics.internalFaults),
      ("joins", count metrics.joins),
      ("total", count metrics.requests)]),
    ("uptime_seconds", .int uptime)]

end StreetDogs.Metrics
