import StreetDogs.Clock
import StreetDogs.Clock.Schedule
import StreetDogs.Atlas.Load
import StreetDogs.Metrics.Exposition

/-!
# The server program

Reads the settings and the maps, then keeps the game going until the standard
input ends, and reports the metrics.
-/

namespace StreetDogs

namespace Program

def readSettings : IO ServerSettings := do
  let environment ← ServerSettings.variableNames.filterMapM fun name => do
    return (← IO.getEnv name).map (name, ·)
  return .ofEnvironment fun name => environment.lookup name

/-- The bytes of a file, or what keeps it from being read. -/
def readFile (path : String) : IO (Except FileError ByteArray) := do
  try
    return .ok (← IO.FS.readBinFile path)
  catch
    | .noFileOrDirectory _ _ _ => return .error .notFound
    | .inappropriateType _ _ _ => return .error .isDirectory
    | other => throw other

def unknownWords : IO (Supply UInt64) := do
  let bytes ← IO.getRandomBytes 8
  return ChaCha.words (bytes.foldl (fun seed byte => seed * 256 + byte.toUInt64) 0)

def instant : BaseIO Duration := return ⟨← IO.monoNanosNow⟩

def tick (now : Duration) (clocked : ClockedServer) : IO ClockedServer := do
  match clocked.clock.wake (.tick now) with
  | (none, clock) => return { clocked with clock }
  | (some time, clock) =>
    let (report, server) := clocked.server.advanceGame time
    let finished ← instant
    return ⟨server.recordReport (finished.since now) report, clock⟩

/-- Runs the clock until the input has ended. -/
partial def runClock (inputEnded : BaseIO Bool) (schedule : Schedule) (clocked : ClockedServer) :
    IO Server := do
  if !clocked.clock.running then
    return clocked.server
  else if ← inputEnded then
    runClock inputEnded schedule (clocked.wake (.shutdown true) .zero)
  else
    let now ← instant
    if now.nanoseconds < schedule.due.nanoseconds then
      let milliseconds := (schedule.due.since now).nanoseconds / 1000000 + 1
      IO.sleep (min milliseconds 50).toUInt32
      runClock inputEnded schedule clocked
    else
      runClock inputEnded (schedule.tick now) (← tick now clocked)

/-- Waits for the end of the input. -/
partial def drain (input : IO.FS.Stream) : IO Unit := do
  if (← input.getLine).isEmpty then return () else drain input

/-- Keeps a server going until the input has ended. -/
def keep (server : Server) : IO Server := do
  let input ← IO.getStdin
  match server.mode with
  | .external => drain input; return server
  | .periodic length =>
    match Period.ofDuration? length with
    | none => drain input; return server
    | some period =>
      let ended ← IO.asTask (drain input)
      let start ← instant
      runClock (IO.hasFinished ended) (.start period start) ⟨server, .start start⟩

/-- Runs a server with the given settings, or says why it cannot run. -/
def serve (settings : ServerSettings) : IO (Except String Unit) := do
  let gameSettings : GameSettings :=
    { randomizeSpawn := settings.randomizeSpawn, spawnSeed := settings.spawnSeed }
  let file ← readFile settings.mapFile
  let entropy ← unknownWords
  let tokens := Token.random (← unknownWords)
  let game := do Game.ofLoaded (← Atlas.loadFile file) gameSettings entropy tokens
  match game with
  | .error error => return .error error.message
  | .ok game =>
    let mode := if settings.tickMode.isPeriodic then "periodic" else "external"
    IO.println s!"Server ready: {game.maps.length} map(s), {mode} tick mode"
    let start ← instant
    let server ← keep { game, mode := settings.tickMode }
    let uptime := ((← instant).since start).seconds
    IO.println (server.metrics.toJson uptime).text
    return .ok ()

end Program

end StreetDogs

def main : IO UInt32 := do
  let settings ← StreetDogs.Program.readSettings
  let outcome ←
    match settings.problem? with
    | some problem => pure (.error problem)
    | none => StreetDogs.Program.serve settings
  match outcome with
  | .ok () => return 0
  | .error message =>
    IO.eprintln s!"Error: {message}"
    return 1
