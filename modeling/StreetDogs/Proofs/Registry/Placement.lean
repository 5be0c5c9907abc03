import StreetDogs.Proofs.Motion.Advance
import StreetDogs.Proofs.Motion.Spawn
import StreetDogs.Proofs.Registry.Dogs

/-!
# Dogs stay on the roads

In every game that a run leads to, every dog is anchored to a road of the map
of its session and within the box of that road, and it has the velocity it was
last commanded to or none.
-/

namespace StreetDogs

open Binary64

/-- The dog is anchored, its command follows its heading, and it obeys the
command or stands. -/
def Dog.OnRoad (map : StreetMap) (dog : Dog) : Prop :=
  dog.motion.Anchored map ∧ dog.heading.Commands dog.command ∧
    (dog.motion.velocity = dog.command ∨ dog.motion.velocity = .zero)

/-- What a client can rely on about a dog that was commanded to a velocity. -/
structure Dog.Placed (map : StreetMap) (command : Vec) (dog : Dog) : Prop where
  /-- The anchor is a road of the map, and the dog is within its widened box. -/
  anchored : ∃ road, map.road? dog.motion.road = some road ∧
    road.contains dog.snapshot.position = true
  finite : dog.snapshot.position.isFinite = true ∧ dog.snapshot.velocity.isFinite = true
  obeys : dog.snapshot.velocity = command ∨ dog.snapshot.velocity = .zero

/-- Dogs stay on the roads as long as speeds are finite. -/
theorem onRoad_invariant : DogInvariant Dog.OnRoad fun speed => speed.isFinite = true where
  spawn map randomize words := by
    obtain ⟨hanchored, hvelocity⟩ := Motion.spawn_anchored map randomize words
    exact ⟨hanchored, Heading.commands_zero _, Or.inr hvelocity⟩
  steer map dog heading speed hspeed h :=
    ⟨h.1, heading.commands_velocity hspeed, Or.inl rfl⟩
  move map dog time moved hmove h := by
    obtain ⟨hanchored, hcommands, -⟩ := h
    obtain ⟨motion, hadvance, rfl⟩ := Dog.move_eq_ok hmove
    exact ⟨hanchored.advance hcommands hadvance, hcommands,
      Motion.velocity_of_advance hadvance⟩

/-- A dog on the road has a finite velocity. -/
theorem Dog.OnRoad.isFinite_velocity {map : StreetMap} {dog : Dog} (h : dog.OnRoad map) :
    dog.motion.velocity.isFinite = true := by
  obtain ⟨-, hcommands, hvelocity⟩ := h
  rw [Vec.isFinite_iff]
  intro axis
  rcases hvelocity with hcommand | hzero
  · rw [hcommand]
    exact (hcommands axis).1
  · rw [hzero]
    exact (Heading.commands_zero default axis).1

theorem isFinite_of_usableSpeed {speed : Float} (h : usableSpeed speed = true) :
    speed.isFinite = true := by
  rw [usableSpeed, Bool.and_eq_true] at h
  exact h.1

namespace Game

variable {game : Game}

/-- The speed of a usable default and of any map is finite. -/
theorem isFinite_speedIn (h : usableSpeed game.settings.defaultDogSpeed = true)
    (session : Session) : (game.speedIn session).isFinite = true := by
  have hdefault := isFinite_of_usableSpeed h
  rw [speedIn]
  cases hspeed : game.maps[session.mapIndex]?.bind (·.dogSpeed) with
  | none => exact hdefault
  | some speed =>
      obtain ⟨map, -, hmapSpeed⟩ := Option.bind_eq_some_iff.mp hspeed
      have husable := map.dogSpeed_usable speed (Option.mem_def.mpr hmapSpeed)
      dsimp only
      split_ifs
      · exact isFinite_of_usableSpeed husable
      · exact hdefault

def commandTo? (place seat : ℕ) : Game × Operation → Option Vec
  | (game, .setHeading token heading) =>
    (game.findByToken? token).bind fun handle =>
      if place = handle.session ∧ seat = handle.player.toNat then
        game.sessions[handle.session]?.map fun session => heading.velocity (game.speedIn session)
      else none
  | _ => none

/-- The velocity that the dog at a seat was last commanded to in a run; zero if
it never was. -/
def lastCommand (place seat : ℕ) (trace : List (Game × Operation)) : Vec :=
  ((trace.filterMap (commandTo? place seat)).getLast?).getD .zero

theorem lastCommand_snoc (place seat : ℕ) (trace : List (Game × Operation))
    (entry : Game × Operation) :
    lastCommand place seat (trace ++ [entry]) =
      (commandTo? place seat entry).getD (lastCommand place seat trace) := by
  rw [lastCommand, List.filterMap_append, List.getLast?_append, lastCommand]
  cases hcommand : commandTo? place seat entry with
  | none => simp [hcommand]
  | some velocity => simp [hcommand]

def commandAt (game : Game) (place seat : ℕ) : Vec :=
  ((game.playerAt? place seat).map (·.dog.command)).getD .zero

/-- A command changes the command of the dog it reaches. -/
private theorem commandAt_setHeading {next : Game} {token : Token} {heading : Heading}
    (h : game.setHeading token heading = .ok next) (place seat : ℕ) :
    next.commandAt place seat =
      (commandTo? place seat (game, .setHeading token heading)).getD
        (game.commandAt place seat) := by
  obtain ⟨handle, session, player, hhandle, hsession, hplayer, hplayers⟩ := playerAt?_setHeading h
  rw [commandAt, hplayers, commandAt, commandTo?]
  simp only [hhandle, Option.bind_some, hsession, Option.map_some]
  split_ifs with hseat
  · rw [hseat.1, hseat.2, hplayer]
    rfl
  · rfl

/-- A newcomer was never commanded. -/
private theorem commandAt_admission {next : Game} {mapId : MapId} {name : String}
    {map : StreetMap} {place : ℕ} {session : Session} {newcomer : Player}
    (h : Admission game mapId name next map place session newcomer) (other seat : ℕ) :
    next.commandAt other seat = game.commandAt other seat := by
  rw [commandAt, h.playerAt?_eq, commandAt]
  split_ifs with hseat
  · rw [hseat.1, hseat.2, h.playerAt?_eq_none, Option.map_some, h.newcomer_dog]
    rfl
  · rfl

/-- An operation changes the commands it is meant to. -/
theorem commandAt_next (hgame : game.Consistent) (operation : Operation) (place seat : ℕ) :
    (game.next operation).commandAt place seat =
      (commandTo? place seat (game, operation)).getD (game.commandAt place seat) := by
  cases operation with
  | setHeading token heading =>
      cases hperform : game.perform (.setHeading token heading) with
      | ok next =>
          rw [next_of_ok hperform]
          exact commandAt_setHeading hperform place seat
      | error error =>
          obtain ⟨-, hunknown⟩ := hgame.setHeading_error hperform
          rw [next_of_error hperform, commandTo?, hunknown]
          rfl
  | join mapId name =>
      rcases next_join_cases hgame mapId name with ⟨_, _, _, _, h⟩ | hnext
      · exact commandAt_admission h place seat
      · rw [hnext]
        rfl
  | advance time => exact congrArg (·.getD .zero) (command_advance game time place seat)
  | sessionOf token =>
      rw [next_sessionOf]
      rfl
  | listPlayers token =>
      rw [next_listPlayers]
      rfl
  | state token =>
      rw [next_state]
      rfl

/-- After a run every dog has the command that was its last. -/
theorem commandAt_after (hgame : game.Consistent) (operations : List Operation) (place seat : ℕ)
    (hstart : game.commandAt place seat = .zero) :
    (game.after operations).commandAt place seat =
      lastCommand place seat (game.trace operations) := by
  apply And.right (run_induction (p := fun trace current => current.Consistent ∧
    current.commandAt place seat = lastCommand place seat trace) ⟨hgame, hstart⟩ _ operations)
  rintro trace current operation ⟨hcurrent, hcommand⟩
  refine ⟨hcurrent.step operation, ?_⟩
  rw [commandAt_next hcurrent, lastCommand_snoc, hcommand]

/-- After every run of a new game every dog stands on a road of its map, with
the velocity it was last commanded to or none. -/
theorem dogs_onRoad_after {maps : List StreetMap} {settings : GameSettings}
    {entropy : Supply UInt64} {tokens : Supply Token}
    (hnew : Game.new maps settings entropy tokens = .ok game)
    (hspeed : usableSpeed settings.defaultDogSpeed = true) (operations : List Operation)
    {place seat : ℕ} {session : Session} {player : Player}
    (hsession : (game.after operations).sessions[place]? = some session)
    (hplayer : session.players[seat]? = some player) :
    ∃ map, maps[session.mapIndex]? = some map ∧ map.id = session.mapId ∧
      player.dog.Placed map (lastCommand place seat (game.trace operations)) := by
  have hstart := consistent_new hnew
  have hgame := hstart.after operations
  have hsessions := sessions_new hnew
  obtain ⟨mapPlaces, -, hgameEq⟩ := new_eq_ok hnew
  have hmaps : (game.after operations).maps = maps := by
    rw [(maps_settings_after hstart operations).1, hgameEq]
  have hsettings : game.settings = settings := by rw [hgameEq]
  obtain ⟨map, hmap, hmapId⟩ := Option.map_eq_some_iff.mp
    (hgame.mapIndex session (List.mem_of_getElem? hsession))
  have hdogs : (game.after operations).EveryDog Dog.OnRoad := by
    apply EveryDog.after onRoad_invariant hstart
    · exact isFinite_speedIn (by rwa [hsettings])
    · rw [EveryDog, hsessions]
      exact nofun
  have honRoad := hdogs session (List.mem_of_getElem? hsession) map hmap player
    (List.mem_of_getElem? hplayer)
  have hcommand : player.dog.command = lastCommand place seat (game.trace operations) := by
    rw [← commandAt_after hstart operations place seat (by simp [commandAt, playerAt?, hsessions]),
      commandAt, playerAt?_eq_some.mpr ⟨session, hsession, hplayer⟩]
    rfl
  have hvelocityFinite := honRoad.isFinite_velocity
  obtain ⟨⟨road, hroad, hcontains⟩, -, hvelocity⟩ := honRoad
  rw [hmaps] at hmap
  rw [hcommand] at hvelocity
  exact ⟨map, hmap, hmapId, ⟨road, hroad, hcontains⟩,
    ⟨Road.isFinite_of_contains hcontains, hvelocityFinite⟩, hvelocity⟩

/-- The dog that drove off in a short run stands on a road. -/
theorem dogs_onRoad_after_shortRun :
    ∃ session player, (onThreeRoads.after shortRun).sessions[0]? = some session ∧
      session.players[0]? = some player ∧ ∃ map,
        [StreetMap.threeRoads][session.mapIndex]? = some map ∧ map.id = session.mapId ∧
          player.dog.Placed map (lastCommand 0 0 (onThreeRoads.trace shortRun)) := by
  have hsome : ((onThreeRoads.after shortRun).playerAt? 0 0).isSome = true := by decide +kernel
  obtain ⟨player, hplayer⟩ := Option.isSome_iff_exists.mp hsome
  obtain ⟨session, hsession, hseat⟩ := playerAt?_eq_some.mp hplayer
  exact ⟨session, player, hsession, hseat,
    dogs_onRoad_after new_onThreeRoads (by decide +kernel) shortRun hsession hseat⟩

end Game

end StreetDogs
