import StreetDogs.Proofs.Registry.Admission

/-!
# Properties of all dogs

A property of dogs on their maps that new dogs have, and that commands and
steps preserve, holds of every dog of a game after every run.
-/

namespace StreetDogs

/-- A dog that moves keeps its heading and command. -/
theorem Dog.move_eq_ok {map : StreetMap} {time : Duration} {dog moved : Dog}
    (h : dog.move map time = .ok moved) :
    ∃ motion, dog.motion.advance map dog.heading dog.command time = .ok motion ∧
      moved = { dog with motion } := by
  rw [Dog.move] at h
  cases hadvance : dog.motion.advance map dog.heading dog.command time with
  | error error => simp [hadvance, Except.map] at h
  | ok motion =>
      rw [hadvance] at h
      exact ⟨motion, rfl, (Except.ok.inj h).symm⟩

/-- A property of dogs on maps that lasts, as long as speeds are usable. -/
structure DogInvariant (p : StreetMap → Dog → Prop) (usable : Float → Prop) : Prop where
  spawn : ∀ map randomize words, p map (Dog.spawn map randomize words).1
  steer : ∀ map dog heading speed, usable speed → p map dog → p map (dog.steer heading speed)
  move : ∀ map dog time moved, dog.move map time = .ok moved → p map dog → p map moved

namespace Game

variable {game : Game} {p : StreetMap → Dog → Prop} {usable : Float → Prop}

def EveryDog (p : StreetMap → Dog → Prop) (game : Game) : Prop :=
  ∀ session ∈ game.sessions, ∀ map, game.maps[session.mapIndex]? = some map →
    ∀ player ∈ session.players, p map player.dog

private theorem EveryDog.admission {next : Game} {mapId : MapId} {name : String} {map : StreetMap}
    {place : ℕ} {session : Session} {newcomer : Player} (hp : DogInvariant p usable)
    (hdogs : game.EveryDog p) (h : Admission game mapId name next map place session newcomer) :
    next.EveryDog p := by
  intro found hfound onMap hmap player hplayer
  obtain ⟨other, hother⟩ := List.mem_iff_getElem?.mp hfound
  rw [h.maps] at hmap
  rcases h.session_cases hother with ⟨-, hold⟩ | ⟨-, rfl⟩
  · exact hdogs found (List.mem_of_getElem? hold) onMap hmap player hplayer
  · rcases List.mem_append.mp hplayer with hold | hnew
    · rcases h.origin with hsession | ⟨-, hempty, -⟩
      · exact hdogs session (List.mem_of_getElem? hsession) onMap hmap player hold
      · rw [hempty] at hold
        cases hold
    · have hsame : game.maps[session.mapIndex]? = some onMap := hmap
      rw [h.map_eq] at hsame
      rw [List.mem_singleton.mp hnew, h.newcomer_dog, Option.some.inj hsame]
      exact hp.spawn onMap _ _

private theorem EveryDog.setHeading {next : Game} {token : Token} {heading : Heading}
    (hp : DogInvariant p usable) (hspeed : ∀ session, usable (game.speedIn session))
    (hdogs : game.EveryDog p) (h : game.setHeading token heading = .ok next) :
    next.EveryDog p := by
  obtain ⟨handle, session, -, -, hsession, -, rfl⟩ := setHeading_eq_ok h
  intro found hfound map hmap player hplayer
  rcases List.mem_or_eq_of_mem_set hfound with hold | rfl
  · exact hdogs found hold map hmap player hplayer
  · have hmem := hdogs session (List.mem_of_getElem? hsession) map hmap
    obtain ⟨seat, hseat⟩ := List.mem_iff_getElem?.mp hplayer
    rw [Session.updateDog, List.getElem?_modify] at hseat
    obtain ⟨old, hold, rfl⟩ := Option.map_eq_some_iff.mp hseat
    have hdog := hmem old (List.mem_of_getElem? hold)
    split_ifs
    · exact hp.steer map old.dog heading _ (hspeed session) hdog
    · exact hdog

private theorem EveryDog.advance (hp : DogInvariant p usable) (hdogs : game.EveryDog p)
    (time : Duration) : (game.advance time).2.EveryDog p := by
  intro found hfound map hmap player hplayer
  simp only [Game.advance, List.map_map, List.mem_map, Function.comp_apply] at hfound
  obtain ⟨session, hsession, rfl⟩ := hfound
  have hmapIndex : (advanceSession game.maps time session).2.mapIndex = session.mapIndex :=
    congrArg (·.2.1) (roster_advanceSession game.maps time session)
  have hmap' : game.maps[session.mapIndex]? = some map := by rwa [hmapIndex] at hmap
  rw [advanceSession] at hplayer
  simp only [hmap', Session.advance] at hplayer
  obtain ⟨old, hold, rfl⟩ := List.mem_map.mp hplayer
  have hdog := hdogs session hsession map hmap' old hold
  rw [Session.movePlayer]
  cases hmove : old.dog.move map time with
  | ok dog => exact hp.move map old.dog time dog hmove hdog
  | error error => exact hdog

theorem EveryDog.step (hp : DogInvariant p usable) (hgame : game.Consistent)
    (hspeed : ∀ session, usable (game.speedIn session)) (hdogs : game.EveryDog p)
    (operation : Operation) : (game.next operation).EveryDog p := by
  cases operation with
  | join mapId name =>
      rcases next_join_cases hgame mapId name with ⟨_, _, _, _, h⟩ | hnext
      · exact hdogs.admission hp h
      · rwa [hnext]
  | setHeading token heading =>
      cases hperform : game.perform (.setHeading token heading) with
      | error error => rwa [next_of_error hperform]
      | ok next =>
          rw [next_of_ok hperform]
          exact hdogs.setHeading hp hspeed hperform
  | advance time => exact hdogs.advance hp time
  | sessionOf token => rwa [next_sessionOf]
  | listPlayers token => rwa [next_listPlayers]
  | state token => rwa [next_state]

theorem EveryDog.after (hp : DogInvariant p usable) (hgame : game.Consistent)
    (hspeed : ∀ session, usable (game.speedIn session)) (hdogs : game.EveryDog p)
    (operations : List Operation) : (game.after operations).EveryDog p := by
  apply And.right (run_induction (p := fun _ current => (current.Consistent ∧
    current.maps = game.maps ∧ current.settings = game.settings) ∧ current.EveryDog p)
      ⟨⟨hgame, rfl, rfl⟩, hdogs⟩ _ operations)
  rintro - current operation ⟨⟨hcurrent, hmaps, hsettings⟩, hcurrentDogs⟩
  obtain ⟨hnextMaps, hnextSettings⟩ := maps_settings_next hcurrent operation
  refine ⟨⟨hcurrent.step operation, hnextMaps.trans hmaps, hnextSettings.trans hsettings⟩, ?_⟩
  apply hcurrentDogs.step hp hcurrent
  intro session
  have hsame : current.speedIn session = game.speedIn session := by
    rw [speedIn, speedIn, hmaps, hsettings]
  rw [hsame]
  exact hspeed session

end Game

end StreetDogs
