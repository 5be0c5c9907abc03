import StreetDogs.Proofs.Registry.Directory
import StreetDogs.Proofs.Registry.Steps

/-!
# Consistency of the registry

The directories agree with the lists they index, every session stands on a map
and has players, and the players are told apart by their names within a
session, by their tokens everywhere.
-/

namespace StreetDogs.Game

/-- The parts of a game that refer to each other do so correctly. -/
structure Consistent (game : Game) : Prop where
  mapPlaces : ∀ id place,
    game.mapPlaces.place? id = some place ↔ game.maps[place]?.map (·.id) = some id
  sessionPlaces : ∀ id place,
    game.sessionPlaces.place? id = some place ↔ game.sessions[place]?.map (·.mapId) = some id
  mapIndex : ∀ session ∈ game.sessions,
    game.maps[session.mapIndex]?.map (·.id) = some session.mapId
  occupied : ∀ session ∈ game.sessions, session.players ≠ []
  names : ∀ session ∈ game.sessions, (session.players.map (·.name)).Nodup
  /-- The id of a player is its place in the roster, in 32 bits. -/
  ids : ∀ session ∈ game.sessions, ∀ seat player,
    session.players[seat]? = some player → player.id = UInt32.ofNat seat
  tokens : ∀ place place' seat seat' player player',
    game.playerAt? place seat = some player → game.playerAt? place' seat' = some player' →
      player.token = player'.token → place = place' ∧ seat = seat'

variable {game next : Game}

section New

variable {maps : List StreetMap} {settings : GameSettings} {entropy : Supply UInt64}
  {tokens : Supply Token}

/-- A new game has the maps and settings it is made of, and no sessions. -/
theorem new_eq_ok (h : Game.new maps settings entropy tokens = .ok game) :
    ∃ mapPlaces, Directory.ofIds (maps.map (·.id)) = .ok mapPlaces ∧
      game = { maps, mapPlaces, settings, words := settings.spawnWords entropy, tokens } := by
  rw [Game.new] at h
  cases hmapPlaces : Directory.ofIds (maps.map (·.id)) with
  | error id => simp [hmapPlaces, Except.map] at h
  | ok mapPlaces =>
      rw [hmapPlaces] at h
      exact ⟨mapPlaces, rfl, (Except.ok.inj h).symm⟩

theorem sessions_new (h : Game.new maps settings entropy tokens = .ok game) :
    game.sessions = [] := by
  obtain ⟨mapPlaces, -, rfl⟩ := new_eq_ok h
  rfl

/-- A new game is consistent. -/
theorem consistent_new (h : Game.new maps settings entropy tokens = .ok game) :
    game.Consistent := by
  obtain ⟨mapPlaces, hmapPlaces, rfl⟩ := new_eq_ok h
  refine ⟨?_, ?_, nofun, nofun, nofun, nofun, ?_⟩
  · intro id place
    rw [Directory.place?_ofIds hmapPlaces, List.getElem?_map]
  · intro id place
    simp
  · intro place place' seat seat' player player' hplayer
    simp [playerAt?] at hplayer

end New

namespace SameRosters

variable {place : ℕ}

theorem mapId_getElem? (h : game.SameRosters next) (place : ℕ) :
    next.sessions[place]?.map (·.mapId) = game.sessions[place]?.map (·.mapId) := by
  have hids := congrArg (fun rosters => (rosters.map (·.1))[place]?) h.rosters
  simpa [List.map_map, Function.comp_def, Session.roster] using hids

theorem exists_mem (h : game.SameRosters next) {session : Session}
    (hsession : session ∈ next.sessions) :
    ∃ old ∈ game.sessions, session.roster = old.roster := by
  obtain ⟨place, hplace⟩ := List.mem_iff_getElem?.mp hsession
  obtain ⟨old, hold, hroster⟩ := h.exists_session hplace
  exact ⟨old, List.mem_of_getElem? hold, hroster⟩

end SameRosters

theorem names_eq_of_roster_eq {session old : Session} (h : session.roster = old.roster) :
    session.players.map (·.name) = old.players.map (·.name) := by
  have hnames := congrArg (fun roster => roster.2.2.map (·.2.1)) h
  simpa [List.map_map, Function.comp_def, Session.roster, Player.entry] using hnames

theorem length_eq_of_roster_eq {session old : Session} (h : session.roster = old.roster) :
    session.players.length = old.players.length := by
  have hlength := congrArg List.length (names_eq_of_roster_eq h)
  rwa [List.length_map, List.length_map] at hlength

/-- Consistency is a matter of maps, directories and rosters. -/
theorem Consistent.of_sameRosters (hgame : game.Consistent) (h : game.SameRosters next) :
    next.Consistent where
  mapPlaces id place := by
    rw [h.maps, h.mapPlaces]
    exact hgame.mapPlaces id place
  sessionPlaces id place := by
    rw [h.sessionPlaces, h.mapId_getElem?]
    exact hgame.sessionPlaces id place
  mapIndex session hsession := by
    obtain ⟨old, hold, hroster⟩ := h.exists_mem hsession
    have hmapIndex : session.mapIndex = old.mapIndex := congrArg (·.2.1) hroster
    have hmapId : session.mapId = old.mapId := congrArg (·.1) hroster
    rw [h.maps, hmapIndex, hmapId]
    exact hgame.mapIndex old hold
  occupied session hsession := by
    obtain ⟨old, hold, hroster⟩ := h.exists_mem hsession
    have hpositive := List.length_pos_iff.mpr (hgame.occupied old hold)
    rw [← length_eq_of_roster_eq hroster] at hpositive
    exact List.length_pos_iff.mp hpositive
  names session hsession := by
    obtain ⟨old, hold, hroster⟩ := h.exists_mem hsession
    rw [names_eq_of_roster_eq hroster]
    exact hgame.names old hold
  ids session hsession seat player hplayer := by
    obtain ⟨place, hplace⟩ := List.mem_iff_getElem?.mp hsession
    obtain ⟨old, hold, hentry⟩ :=
      h.exists_player (playerAt?_eq_some.mpr ⟨session, hplace, hplayer⟩)
    obtain ⟨oldSession, holdSession, hseat⟩ := playerAt?_eq_some.mp hold
    have hid : player.id = old.id := congrArg (·.1) hentry
    rw [hid]
    exact hgame.ids oldSession (List.mem_of_getElem? holdSession) seat old hseat
  tokens place place' seat seat' player player' hplayer hplayer' htoken := by
    obtain ⟨old, hold, hentry⟩ := h.exists_player hplayer
    obtain ⟨old', hold', hentry'⟩ := h.exists_player hplayer'
    have hsame : player.token = old.token := congrArg (·.2.2) hentry
    have hsame' : player'.token = old'.token := congrArg (·.2.2) hentry'
    rw [hsame, hsame'] at htoken
    exact hgame.tokens place place' seat seat' old old' hold hold' htoken

/-- The map of a session exists. -/
theorem Consistent.exists_map (h : game.Consistent) {session : Session}
    (hsession : session ∈ game.sessions) :
    ∃ map, game.maps[session.mapIndex]? = some map ∧ map.id = session.mapId :=
  Option.map_eq_some_iff.mp (h.mapIndex session hsession)

/-- The directory of sessions knows every session. -/
theorem Consistent.place?_of_session (h : game.Consistent) {place : ℕ} {session : Session}
    (hsession : game.sessions[place]? = some session) :
    game.sessionPlaces.place? session.mapId = some place := by
  rw [h.sessionPlaces, hsession, Option.map_some]

/-- There is one session for a map. -/
theorem Consistent.place_unique (h : game.Consistent) {place place' : ℕ}
    {session session' : Session} (hsession : game.sessions[place]? = some session)
    (hsession' : game.sessions[place']? = some session') (hmapId : session.mapId = session'.mapId) :
    place = place' := by
  have hplace := h.place?_of_session hsession
  rw [hmapId, h.place?_of_session hsession'] at hplace
  exact (Option.some.inj hplace).symm

/-- While there are ids for all players of a session, they tell the places. -/
theorem Consistent.toNat_id (h : game.Consistent) {session : Session}
    (hsession : session ∈ game.sessions) (hsmall : session.players.length < 2 ^ 32) {seat : ℕ}
    {player : Player} (hplayer : session.players[seat]? = some player) :
    player.id.toNat = seat := by
  obtain ⟨hlt, -⟩ := List.getElem?_eq_some_iff.mp hplayer
  have hseat : seat < UInt32.size := Nat.lt_trans hlt hsmall
  rw [h.ids session hsession seat player hplayer, UInt32.toNat_ofNat_of_lt' hseat]

/-- A handle that is found leads to a player. -/
theorem Consistent.player?_of_found (h : game.Consistent) {token : Token} {handle : PlayerHandle}
    (hfound : game.findByToken? token = some handle) :
    ∃ session player, game.sessions[handle.session]? = some session ∧
      session.player? handle.player = some player := by
  obtain ⟨seat, player, hplayer, -, hid⟩ := exists_of_findByToken? hfound
  obtain ⟨session, hsession, hseat⟩ := playerAt?_eq_some.mp hplayer
  have hids := h.ids session (List.mem_of_getElem? hsession)
  have hlt : handle.player.toNat < session.players.length := by
    obtain ⟨hlt, -⟩ := List.getElem?_eq_some_iff.mp hseat
    rw [← hid, hids seat player hseat, UInt32.toNat_ofNat']
    exact Nat.lt_of_le_of_lt (Nat.mod_le _ _) hlt
  have hreached := List.getElem?_eq_getElem hlt
  have hreachedId := hids handle.player.toNat _ hreached
  rw [UInt32.ofNat_toNat] at hreachedId
  refine ⟨session, _, hsession, Option.filter_eq_some_iff.mpr ⟨hreached, ?_⟩⟩
  rw [hreachedId, beq_self_eq_true]

/-- The session of a token is found unless nobody holds the token. -/
theorem Consistent.sessionOf_error (h : game.Consistent) {token : Token} {error : GameError}
    (herror : game.sessionOf token = .error error) : error = .unknownToken := by
  rw [sessionOf] at herror
  cases hhandle : game.findByToken? token with
  | none =>
      simp only [hhandle] at herror
      exact (Except.error.inj herror).symm
  | some handle =>
      obtain ⟨session, player, hsession, -⟩ := h.player?_of_found hhandle
      simp [hhandle, hsession] at herror

/-- A change of what succeeds leaves an error as it is. -/
theorem error_of_map {α β ε : Type} {change : α → β} {outcome : Except ε α} {error : ε}
    (h : outcome.map change = .error error) : outcome = .error error := by
  cases outcome with
  | error _ => exact congrArg Except.error (Except.error.inj h)
  | ok _ => cases h

theorem Consistent.listPlayers_error (h : game.Consistent) {token : Token} {error : GameError}
    (herror : game.listPlayers token = .error error) : error = .unknownToken :=
  h.sessionOf_error (error_of_map herror)

theorem Consistent.state_error (h : game.Consistent) {token : Token} {error : GameError}
    (herror : game.state token = .error error) : error = .unknownToken :=
  h.listPlayers_error (error_of_map herror)

/-- A command succeeds unless nobody holds the token. -/
theorem Consistent.setHeading_error (h : game.Consistent) {token : Token} {heading : Heading}
    {error : GameError} (herror : game.setHeading token heading = .error error) :
    error = .unknownToken ∧ game.findByToken? token = none := by
  rw [setHeading] at herror
  cases hhandle : game.findByToken? token with
  | none =>
      simp only [hhandle] at herror
      exact ⟨(Except.error.inj herror).symm, rfl⟩
  | some handle =>
      obtain ⟨session, player, hsession, hplayer⟩ := h.player?_of_found hhandle
      simp [hhandle, hsession, hplayer] at herror

/-- The owner of a token is found, and it is the only one. -/
theorem Consistent.findByToken?_eq_some (h : game.Consistent) {place seat : ℕ} {player : Player}
    (hplayer : game.playerAt? place seat = some player) :
    game.findByToken? player.token = some ⟨place, player.id⟩ := by
  cases hfound : game.findByToken? player.token with
  | none => exact absurd rfl (findByToken?_eq_none_iff.mp hfound place seat player hplayer)
  | some handle =>
      obtain ⟨seat', player', hplayer', htoken, hid⟩ := exists_of_findByToken? hfound
      obtain ⟨hplace, rfl⟩ :=
        h.tokens handle.session place seat' seat player' player hplayer' hplayer htoken
      rw [hplace, hplayer] at hplayer'
      rw [Option.some.inj hplayer', hid, ← hplace]

/-- The session that is found for a map is the one on it. -/
theorem Consistent.sessionForMap?_eq_some (hgame : game.Consistent) {mapId : MapId}
    {session : Session} : game.sessionForMap? mapId = some session ↔
      session ∈ game.sessions ∧ session.mapId = mapId := by
  rw [sessionForMap?, Option.bind_eq_some_iff]
  constructor
  · rintro ⟨place, hplace, hsession⟩
    rw [hgame.sessionPlaces, hsession, Option.map_some, Option.some_inj] at hplace
    exact ⟨List.mem_of_getElem? hsession, hplace⟩
  · rintro ⟨hmem, rfl⟩
    obtain ⟨place, hsession⟩ := List.mem_iff_getElem?.mp hmem
    exact ⟨place, hgame.place?_of_session hsession, hsession⟩

/-- The player found under a map and a name sits in the session of the map. -/
theorem Consistent.playerOn?_eq_some (hgame : game.Consistent) {mapId : MapId} {name : String}
    {player : Player} : game.playerOn? mapId name = some player ↔
      ∃ place seat, game.sessions[place]?.map (·.mapId) = some mapId ∧
        game.playerAt? place seat = some player ∧ player.name = name := by
  constructor
  · intro h
    obtain ⟨session, hsession, hnamed⟩ := Option.bind_eq_some_iff.mp h
    obtain ⟨hmem, hmapId⟩ := hgame.sessionForMap?_eq_some.mp hsession
    obtain ⟨place, hplace⟩ := List.mem_iff_getElem?.mp hmem
    obtain ⟨seat, hseat⟩ := List.mem_iff_getElem?.mp (List.mem_of_find?_eq_some hnamed)
    have hname := List.find?_some hnamed
    exact ⟨place, seat, by rw [hplace, Option.map_some, hmapId],
      playerAt?_eq_some.mpr ⟨session, hplace, hseat⟩, beq_iff_eq.mp hname⟩
  · rintro ⟨place, seat, hmapId, hplayer, rfl⟩
    obtain ⟨session, hplace, hseat⟩ := playerAt?_eq_some.mp hplayer
    rw [hplace, Option.map_some, Option.some_inj] at hmapId
    have hmem := List.mem_of_getElem? hplace
    have hfound := hgame.sessionForMap?_eq_some.mpr ⟨hmem, hmapId⟩
    rw [playerOn?, hfound, Option.bind_some]
    cases hnamed : session.playerNamed? player.name with
    | none =>
        have hne := List.find?_eq_none.mp hnamed player (List.mem_of_getElem? hseat)
        exact absurd (beq_self_eq_true player.name) hne
    | some other =>
        have hname := List.find?_some hnamed
        rw [List.inj_on_of_nodup_map (hgame.names session hmem)
          (List.mem_of_find?_eq_some hnamed) (List.mem_of_getElem? hseat) (beq_iff_eq.mp hname)]

/-- A player in the session of a map is found under the map and the name. -/
theorem Consistent.playerOn?_of_mem (hgame : game.Consistent) {session : Session} {player : Player}
    (hsession : session ∈ game.sessions) (hplayer : player ∈ session.players) :
    game.playerOn? session.mapId player.name = some player := by
  obtain ⟨place, hplace⟩ := List.mem_iff_getElem?.mp hsession
  obtain ⟨seat, hseat⟩ := List.mem_iff_getElem?.mp hplayer
  exact hgame.playerOn?_eq_some.mpr ⟨place, seat, by rw [hplace, Option.map_some],
    playerAt?_eq_some.mpr ⟨session, hplace, hseat⟩, rfl⟩

end StreetDogs.Game
