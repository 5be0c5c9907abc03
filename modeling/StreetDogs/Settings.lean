import StreetDogs.Duration
import StreetDogs.Decimal.Digits

/-!
# Settings of a server

The settings are read from environment variables.  A variable that cannot be
understood counts as absent.
-/

namespace StreetDogs

/-- What makes time go on. -/
inductive TickMode where
  /-- A clock with this period. -/
  | periodic (period : Duration)
  /-- Requests of clients. -/
  | external
deriving DecidableEq, Repr

def TickMode.isPeriodic : TickMode → Bool
  | periodic _ => true
  | external => false

structure ServerSettings where
  /-- The file with the maps. -/
  mapFile : String := "data/config.json"
  tickMode : TickMode := .external
  randomizeSpawn : Bool := false
  spawnSeed : Option UInt64 := none
deriving DecidableEq, Repr

namespace ServerSettings

/-- A number of 64 bits without sign: decimal digits, which a plus sign may
precede. -/
def parseWord? (text : String) : Option UInt64 :=
  let digits :=
    match text.toList with
    | '+' :: digits => digits
    | digits => digits
  match Decimal.readNat? digits with
  | some n => if n < UInt64.size then some n.toUInt64 else none
  | none => none

/-- The lower-case form of an ASCII letter; other characters stay. -/
def lowerChar (c : Char) : Char :=
  if 'A' ≤ c ∧ c ≤ 'Z' then Char.ofNat (c.toNat + 32) else c

/-- The words that switch a setting on, in any mix of cases. -/
def isTruthy (text : String) : Bool :=
  ["1", "true", "yes"].contains (String.ofList (text.toList.map lowerChar))

/-- The tick mode of a period in milliseconds, which has to be positive. -/
def tickModeOf (text : String) : TickMode :=
  match parseWord? text with
  | some milliseconds =>
    if milliseconds = 0 then .external else .periodic (.ofMilliseconds milliseconds.toNat)
  | none => .external

def variableNames : List String :=
  ["CONFIG_FILE", "TICK_PERIOD_MS", "RANDOMIZE_SPAWN_POINTS", "SPAWN_SEED"]

def ofEnvironment (lookup : String → Option String) : ServerSettings :=
  let fallback : ServerSettings := {}
  { mapFile :=
      match lookup "CONFIG_FILE" with
      | some path => if path.isEmpty then fallback.mapFile else path
      | none => fallback.mapFile
    tickMode := ((lookup "TICK_PERIOD_MS").map tickModeOf).getD fallback.tickMode
    randomizeSpawn :=
      ((lookup "RANDOMIZE_SPAWN_POINTS").map isTruthy).getD fallback.randomizeSpawn
    spawnSeed := (lookup "SPAWN_SEED").bind parseWord? }

def problem? (settings : ServerSettings) : Option String :=
  if settings.mapFile.isEmpty then some "config_file cannot be empty"
  else if settings.tickMode = .periodic .zero then some "Tick period cannot be 0"
  else none

end ServerSettings

end StreetDogs
