/-!
# Durations

Lengths of time, counted in nanoseconds.  Instants are durations since the
start of a clock, so the time between two instants is again a duration.
-/

namespace StreetDogs

structure Duration where
  nanoseconds : Nat
deriving DecidableEq, Repr

namespace Duration

def zero : Duration := ⟨0⟩

instance : Inhabited Duration := ⟨zero⟩

def ofMilliseconds (count : Nat) : Duration := ⟨count * 1000000⟩

/-- Whole seconds and the nanoseconds beyond them. -/
def ofParts (seconds nanoseconds : Nat) : Duration := ⟨seconds * 1000000000 + nanoseconds⟩

def seconds (duration : Duration) : Nat := duration.nanoseconds / 1000000000

def subsecond (duration : Duration) : Nat := duration.nanoseconds % 1000000000

instance : Add Duration := ⟨fun a b => ⟨a.nanoseconds + b.nanoseconds⟩⟩

/-- Time from `earlier` to `later`, zero when `later` does not come later. -/
def since (later earlier : Duration) : Duration := ⟨later.nanoseconds - earlier.nanoseconds⟩

/-- The first whole millisecond that is not earlier. -/
def upToMillisecond (duration : Duration) : Duration :=
  ofMilliseconds ((duration.nanoseconds + 999999) / 1000000)

/-- Seconds as a binary64 number: the whole seconds and the fraction are each
rounded to the nearest number, then added. -/
def inSeconds (duration : Duration) : Float :=
  Float.ofNat duration.seconds + Float.ofNat duration.subsecond / 1000000000.0

/-- Whole microseconds in a 64-bit counter. -/
def inMicroseconds (duration : Duration) : UInt64 := (duration.nanoseconds / 1000).toUInt64

end Duration

end StreetDogs
