import StreetDogs.Proofs.Registry.Run

/-!
# Commands and steps of the clock

A search by token finds an owner exactly when there is one.  Commands and steps
of the clock change dogs and nothing else: the rosters of all sessions stay.
-/

namespace StreetDogs

/-- What of a player never changes. -/
def Player.entry (player : Player) : PlayerId × String × Token :=
  (player.id, player.name, player.token)

/-- What of a session only joins change. -/
def Session.roster (session : Session) : MapId × ℕ × List (PlayerId × String × Token) :=
  (session.mapId, session.mapIndex, session.players.map (·.entry))

/-- The dog after a step of the clock; one that cannot move stays as it is. -/
def Dog.moveOrStay (map : StreetMap) (time : Duration) (dog : Dog) : Dog :=
  match dog.move map time with
  | .ok moved => moved
  | .error _ => dog

theorem Dog.moveOrStay_heading (dog : Dog) (map : StreetMap) (time : Duration) :
    (dog.moveOrStay map time).heading = dog.heading := by
  rw [moveOrStay, move]
  cases dog.motion.advance map dog.heading dog.command time <;> rfl

theorem Dog.moveOrStay_command (dog : Dog) (map : StreetMap) (time : Duration) :
    (dog.moveOrStay map time).command = dog.command := by
  rw [moveOrStay, move]
  cases dog.motion.advance map dog.heading dog.command time <;> rfl

theorem Session.movePlayer_eq (map : StreetMap) (time : Duration) (player : Player) :
    movePlayer map time player = { player with dog := player.dog.moveOrStay map time } := by
  rw [movePlayer, Dog.moveOrStay]
  cases player.dog.move map time <;> rfl

namespace Game

variable {game next : Game} {token : Token} {heading : Heading} {handle : PlayerHandle}
  {place seat : ℕ} {player : Player}

theorem findByToken?_eq_none_iff :
    game.findByToken? token = none ↔
      ∀ place seat player, game.playerAt? place seat = some player → player.token ≠ token := by
  simp only [findByToken?, List.findSome?_eq_none_iff, Option.map_eq_none_iff,
    Session.playerWithToken?, List.find?_eq_none, beq_iff_eq, Prod.forall]
  constructor
  · intro h place seat player hplayer
    obtain ⟨session, hsession, hseat⟩ := playerAt?_eq_some.mp hplayer
    exact h session place (List.mem_zipIdx_iff_getElem?.mpr hsession) player
      (List.mem_of_getElem? hseat)
  · intro h session place hsession player hplayer
    obtain ⟨seat, hseat⟩ := List.mem_iff_getElem?.mp hplayer
    exact h place seat player
      (playerAt?_eq_some.mpr ⟨session, List.mem_zipIdx_iff_getElem?.mp hsession, hseat⟩)

/-- A handle that is found leads to an owner of the token. -/
theorem exists_of_findByToken? (h : game.findByToken? token = some handle) :
    ∃ seat player, game.playerAt? handle.session seat = some player ∧ player.token = token ∧
      player.id = handle.player := by
  obtain ⟨⟨session, place⟩, hmem, hfound⟩ := List.exists_of_findSome?_eq_some h
  obtain ⟨player, hplayer, rfl⟩ := Option.map_eq_some_iff.mp hfound
  obtain ⟨seat, hseat⟩ := List.mem_iff_getElem?.mp (List.mem_of_find?_eq_some hplayer)
  have htoken := List.find?_some hplayer
  exact ⟨seat, player,
    playerAt?_eq_some.mpr ⟨session, List.mem_zipIdx_iff_getElem?.mp hmem, hseat⟩,
    beq_iff_eq.mp htoken, rfl⟩

/-- The games have the same maps, settings, supplies and rosters. -/
structure SameRosters (game next : Game) : Prop where
  maps : next.maps = game.maps
  mapPlaces : next.mapPlaces = game.mapPlaces
  sessionPlaces : next.sessionPlaces = game.sessionPlaces
  settings : next.settings = game.settings
  words : next.words = game.words
  tokens : next.tokens = game.tokens
  rosters : next.sessions.map (·.roster) = game.sessions.map (·.roster)

namespace SameRosters

theorem refl (game : Game) : game.SameRosters game := ⟨rfl, rfl, rfl, rfl, rfl, rfl, rfl⟩

theorem symm (h : game.SameRosters next) : next.SameRosters game :=
  ⟨h.maps.symm, h.mapPlaces.symm, h.sessionPlaces.symm, h.settings.symm, h.words.symm,
    h.tokens.symm, h.rosters.symm⟩

theorem trans {later : Game} (h : game.SameRosters next) (h' : next.SameRosters later) :
    game.SameRosters later :=
  ⟨h'.maps.trans h.maps, h'.mapPlaces.trans h.mapPlaces, h'.sessionPlaces.trans h.sessionPlaces,
    h'.settings.trans h.settings, h'.words.trans h.words, h'.tokens.trans h.tokens,
    h'.rosters.trans h.rosters⟩

theorem length_eq (h : game.SameRosters next) : next.sessions.length = game.sessions.length := by
  simpa using congrArg List.length h.rosters

theorem exists_session (h : game.SameRosters next) {session : Session}
    (hsession : next.sessions[place]? = some session) :
    ∃ old, game.sessions[place]? = some old ∧ session.roster = old.roster := by
  have hroster := congrArg (fun rosters => rosters[place]?) h.rosters
  rw [List.getElem?_map, List.getElem?_map, hsession] at hroster
  obtain ⟨old, hold, heq⟩ := Option.map_eq_some_iff.mp hroster.symm
  exact ⟨old, hold, heq.symm⟩

theorem exists_player (h : game.SameRosters next)
    (hplayer : next.playerAt? place seat = some player) :
    ∃ old, game.playerAt? place seat = some old ∧ player.entry = old.entry := by
  obtain ⟨session, hsession, hseat⟩ := playerAt?_eq_some.mp hplayer
  obtain ⟨old, hold, hroster⟩ := h.exists_session hsession
  have hentries := congrArg (fun roster => roster.2.2[seat]?) hroster
  simp only [Session.roster, List.getElem?_map, hseat, Option.map_some] at hentries
  obtain ⟨oldPlayer, holdPlayer, heq⟩ := Option.map_eq_some_iff.mp hentries.symm
  exact ⟨oldPlayer, playerAt?_eq_some.mpr ⟨old, hold, holdPlayer⟩, heq.symm⟩

end SameRosters

/-- A command that succeeds found an owner of the token and steered its dog. -/
theorem setHeading_eq_ok (h : game.setHeading token heading = .ok next) :
    ∃ handle session player, game.findByToken? token = some handle ∧
      game.sessions[handle.session]? = some session ∧
      session.player? handle.player = some player ∧
      next = { game with
        sessions := game.sessions.set handle.session
          (session.updateDog handle.player (·.steer heading (game.speedIn session))) } := by
  rw [setHeading] at h
  cases hhandle : game.findByToken? token with
  | none => simp [hhandle] at h
  | some handle =>
      simp only [hhandle] at h
      cases hsession : game.sessions[handle.session]? with
      | none => simp [hsession] at h
      | some session =>
          simp only [hsession] at h
          cases hplayer : session.player? handle.player with
          | none => simp [hplayer] at h
          | some player =>
              simp only [hplayer] at h
              exact ⟨handle, session, player, rfl, hsession, hplayer, (Except.ok.inj h).symm⟩

theorem map_entry_modify (players : List Player) (seat : ℕ) (change : Dog → Dog) :
    (players.modify seat fun player => { player with dog := change player.dog }).map (·.entry) =
      players.map (·.entry) := by
  apply List.ext_getElem?
  intro other
  rw [List.getElem?_map, List.getElem?_map, List.getElem?_modify]
  cases players[other]? with
  | none => rfl
  | some player =>
      simp only [Option.map_eq_map, Option.map_some]
      split_ifs <;> rfl

theorem roster_updateDog (session : Session) (id : PlayerId) (change : Dog → Dog) :
    (session.updateDog id change).roster = session.roster := by
  rw [Session.roster, Session.updateDog, map_entry_modify]
  rfl

theorem sameRosters_setHeading (h : game.setHeading token heading = .ok next) :
    game.SameRosters next := by
  obtain ⟨handle, session, player, -, hsession, -, rfl⟩ := setHeading_eq_ok h
  refine ⟨rfl, rfl, rfl, rfl, rfl, rfl, ?_⟩
  dsimp only
  rw [List.map_set, roster_updateDog]
  have hroster : (game.sessions.map (·.roster))[handle.session]? = some session.roster := by
    rw [List.getElem?_map, hsession, Option.map_some]
  obtain ⟨hlt, heq⟩ := List.getElem?_eq_some_iff.mp hroster
  rw [← heq, List.set_getElem_self]

theorem sameRosters_next_setHeading (game : Game) (token : Token) (heading : Heading) :
    game.SameRosters (game.next (.setHeading token heading)) := by
  cases hperform : game.perform (.setHeading token heading) with
  | error error =>
      rw [next_of_error hperform]
      exact .refl game
  | ok next =>
      rw [next_of_ok hperform]
      exact sameRosters_setHeading hperform

/-- A command steers the dog that the handle leads to, and no other. -/
theorem playerAt?_setHeading (h : game.setHeading token heading = .ok next) :
    ∃ handle session player, game.findByToken? token = some handle ∧
      game.sessions[handle.session]? = some session ∧
      game.playerAt? handle.session handle.player.toNat = some player ∧
      ∀ place seat, next.playerAt? place seat =
        if place = handle.session ∧ seat = handle.player.toNat then
          (game.playerAt? place seat).map fun player =>
            { player with dog := player.dog.steer heading (game.speedIn session) }
        else game.playerAt? place seat := by
  obtain ⟨handle, session, player, hhandle, hsession, hplayer, rfl⟩ := setHeading_eq_ok h
  obtain ⟨hreached, -⟩ := Option.filter_eq_some_iff.mp hplayer
  refine ⟨handle, session, player, hhandle, hsession,
    playerAt?_eq_some.mpr ⟨session, hsession, hreached⟩, fun place seat => ?_⟩
  obtain ⟨hlt, -⟩ := List.getElem?_eq_some_iff.mp hsession
  by_cases hplace : place = handle.session
  · rw [playerAt?, playerAt?, hplace, List.getElem?_set_self hlt, hsession, Option.bind_some,
      Option.bind_some, Session.updateDog, List.getElem?_modify]
    by_cases hseat : seat = handle.player.toNat
    · rw [if_pos ⟨rfl, hseat⟩, hseat]
      simp
    · rw [if_neg fun h => hseat h.2]
      cases session.players[seat]? with
      | none => rfl
      | some other => simp [Ne.symm hseat]
  · rw [if_neg fun h => hplace h.1, playerAt?, playerAt?, List.getElem?_set_ne (Ne.symm hplace)]

/-! ## Steps of the clock -/

def mapAt? (game : Game) (place : ℕ) : Option StreetMap :=
  game.sessions[place]?.bind fun session => game.maps[session.mapIndex]?

def movedAt (game : Game) (time : Duration) (place : ℕ) (dog : Dog) : Dog :=
  match game.mapAt? place with
  | some map => dog.moveOrStay map time
  | none => dog

/-- A step of the clock moves every dog on the map of its session. -/
theorem playerAt?_advance (game : Game) (time : Duration) (place seat : ℕ) :
    (game.advance time).2.playerAt? place seat = (game.playerAt? place seat).map fun player =>
      { player with dog := game.movedAt time place player.dog } := by
  simp only [playerAt?, advance, List.map_map, List.getElem?_map, movedAt, mapAt?]
  cases game.sessions[place]? with
  | none => rfl
  | some session =>
      simp only [Option.map_some, Option.bind_some, Function.comp_apply, advanceSession]
      cases game.maps[session.mapIndex]? with
      | none => simp
      | some map =>
          simp only [Session.advance, List.getElem?_map]
          congr 1
          exact funext (Session.movePlayer_eq map time)

/-- A step of the clock changes no command. -/
theorem command_advance (game : Game) (time : Duration) (place seat : ℕ) :
    ((game.advance time).2.playerAt? place seat).map (·.dog.command) =
      (game.playerAt? place seat).map (·.dog.command) := by
  rw [playerAt?_advance, Option.map_map]
  congr 1
  funext player
  rw [Function.comp_apply, movedAt]
  cases game.mapAt? place with
  | none => rfl
  | some map => exact player.dog.moveOrStay_command map time

theorem roster_advanceSession (maps : List StreetMap) (time : Duration) (session : Session) :
    (advanceSession maps time session).2.roster = session.roster := by
  rw [advanceSession]
  cases maps[session.mapIndex]? with
  | none => rfl
  | some map =>
      simp only [Session.advance, Session.roster, List.map_map]
      congr 2
      apply List.map_congr_left
      intro player _
      rw [Function.comp_apply, Session.movePlayer_eq]
      rfl

theorem sameRosters_advance (game : Game) (time : Duration) :
    game.SameRosters (game.advance time).2 := by
  refine ⟨rfl, rfl, rfl, rfl, rfl, rfl, ?_⟩
  simp only [advance, List.map_map]
  exact List.map_congr_left fun session _ => roster_advanceSession game.maps time session

theorem sameRosters_next_advance (game : Game) (time : Duration) :
    game.SameRosters (game.next (.advance time)) :=
  sameRosters_advance game time

/-- An operation is a join that succeeds, or leaves the rosters as they are. -/
theorem next_cases (game : Game) (operation : Operation) :
    (∃ mapId name joined, operation = .join mapId name ∧
        game.join mapId name = .ok (joined, game.next operation)) ∨
      game.SameRosters (game.next operation) := by
  cases hperform : game.perform operation with
  | error error =>
      rw [next_of_error hperform]
      exact Or.inr (.refl game)
  | ok next =>
      rw [next_of_ok hperform]
      cases operation with
      | join mapId name =>
          obtain ⟨joined, hjoin⟩ := perform_join_eq_ok.mp hperform
          exact Or.inl ⟨mapId, name, joined, rfl, hjoin⟩
      | setHeading token heading => exact Or.inr (sameRosters_setHeading hperform)
      | advance time =>
          rw [← Except.ok.inj hperform]
          exact Or.inr (sameRosters_advance game time)
      | sessionOf token =>
          rw [← next_of_ok hperform, next_sessionOf]
          exact Or.inr (.refl game)
      | listPlayers token =>
          rw [← next_of_ok hperform, next_listPlayers]
          exact Or.inr (.refl game)
      | state token =>
          rw [← next_of_ok hperform, next_state]
          exact Or.inr (.refl game)

end Game

end StreetDogs
