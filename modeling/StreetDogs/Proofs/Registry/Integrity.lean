import StreetDogs.Proofs.Motion.Advance
import StreetDogs.Proofs.Motion.Spawn
import StreetDogs.Proofs.Registry.Dogs

/-!
# Integrity of reachable games

In every game that a run leads to, the directories, rosters, tokens and anchors
fit each other, so the errors that stand for damage inside the game are never
answered.
-/

namespace StreetDogs

/-- A player whose id tells its place is found by it. -/
theorem Session.player?_eq_some {session : Session} {seat : ℕ} {player : Player}
    (hplayer : session.players[seat]? = some player) (hseat : player.id.toNat = seat) :
    session.player? player.id = some player := by
  rw [player?, hseat, hplayer, Option.filter_some, beq_self_eq_true, if_pos rfl]

/-- The anchors of all dogs last. -/
theorem anchored_invariant :
    DogInvariant (fun map dog => (map.road? dog.motion.road).isSome = true) fun _ => True where
  spawn map randomize words := by
    obtain ⟨⟨road, hroad, -⟩, -⟩ := Motion.spawn_anchored map randomize words
    exact Option.isSome_of_eq_some hroad
  steer _ _ _ _ _ h := h
  move map dog time moved hmove h := by
    obtain ⟨motion, hadvance, rfl⟩ := Dog.move_eq_ok hmove
    exact (Motion.advance_known h).2 motion hadvance

namespace Game

/-- The parts of a game fit each other, and no index leads out of bounds. -/
structure Intact (game : Game) : Prop where
  /-- No two players hold the same token. -/
  tokens : ∀ place place' seat seat' player player',
    game.playerAt? place seat = some player → game.playerAt? place' seat' = some player' →
      player.token = player'.token → place = place' ∧ seat = seat'
  /-- The directory of sessions gives the map of each session the place of the
  session, and nothing else. -/
  sessionPlaces : ∀ id place, game.sessionPlaces.place? id = some place ↔
    ∃ session, game.sessions[place]? = some session ∧ session.mapId = id
  /-- The directory of maps leads to the maps. -/
  mapPlaces : ∀ id place, game.mapPlaces.place? id = some place ↔
    ∃ map, game.maps[place]? = some map ∧ map.id = id
  mapIndex : ∀ session ∈ game.sessions,
    ∃ map, game.maps[session.mapIndex]? = some map ∧ map.id = session.mapId
  occupied : ∀ session ∈ game.sessions, session.isEmpty = false
  /-- A token leads to its holder, whom the handle reaches. -/
  holder : ∀ (place : ℕ) (session : Session) (seat : ℕ) (player : Player),
    game.sessions[place]? = some session → session.players[seat]? = some player →
      game.findByToken? player.token = some ⟨place, player.id⟩ ∧
        session.player? player.id = some player
  /-- A token that leads somewhere has a holder there. -/
  found : ∀ token handle, game.findByToken? token = some handle →
    ∃ session player, game.sessions[handle.session]? = some session ∧
      session.player? handle.player = some player ∧ player.token = token
  /-- No operation answers with an internal error. -/
  noInternalError : ∀ operation error, game.perform operation = .error error →
    error.isInternal = false
  /-- No dog fails to move for want of its road. -/
  noUnknownRoad : ∀ session ∈ game.sessions, ∀ map, game.maps[session.mapIndex]? = some map →
    ∀ player ∈ session.players, ∀ time index,
      player.dog.move map time ≠ .error (.unknownRoad index)
  /-- The junctions of the maps name roads of the maps. -/
  junctions : ∀ map ∈ game.maps, ∀ index, ∀ neighbour ∈ map.junctions.neighbours index,
    neighbour.road < map.roads.length

variable {game : Game}

/-- The holder of a token is reached through the handle of the token. -/
private theorem Consistent.holder (hgame : game.Consistent)
    (hsmall : ∀ session ∈ game.sessions, session.players.length < 2 ^ 32) {place seat : ℕ}
    {session : Session} {player : Player} (hsession : game.sessions[place]? = some session)
    (hplayer : session.players[seat]? = some player) :
    game.findByToken? player.token = some ⟨place, player.id⟩ ∧
      session.player? player.id = some player := by
  have hmem := List.mem_of_getElem? hsession
  exact ⟨hgame.findByToken?_eq_some (playerAt?_eq_some.mpr ⟨session, hsession, hplayer⟩),
    Session.player?_eq_some hplayer (hgame.toNat_id hmem (hsmall session hmem) hplayer)⟩

private theorem Consistent.found (hgame : game.Consistent)
    (hsmall : ∀ session ∈ game.sessions, session.players.length < 2 ^ 32) {token : Token}
    {handle : PlayerHandle} (h : game.findByToken? token = some handle) :
    ∃ session player, game.sessions[handle.session]? = some session ∧
      session.player? handle.player = some player ∧ player.token = token := by
  obtain ⟨seat, player, hplayer, htoken, hid⟩ := exists_of_findByToken? h
  obtain ⟨session, hsession, hseat⟩ := playerAt?_eq_some.mp hplayer
  obtain ⟨-, hreached⟩ := hgame.holder hsmall hsession hseat
  rw [hid] at hreached
  exact ⟨session, player, hsession, hreached, htoken⟩

/-- Operations fail for what they were asked, never for the state of the game. -/
private theorem Consistent.perform_error (hgame : game.Consistent) {operation : Operation}
    {error : GameError} (h : game.perform operation = .error error) :
    error.isInternal = false := by
  cases operation with
  | join mapId name =>
      rcases join_error hgame (error_of_map h) with ⟨rfl, -⟩ | ⟨rfl, -⟩ | ⟨rfl, -⟩ <;> rfl
  | setHeading token heading =>
      rw [(hgame.setHeading_error h).1]
      rfl
  | advance time => cases h
  | sessionOf token =>
      rw [hgame.sessionOf_error (error_of_map h)]
      rfl
  | listPlayers token =>
      rw [hgame.listPlayers_error (error_of_map h)]
      rfl
  | state token =>
      rw [hgame.state_error (error_of_map h)]
      rfl

private theorem noUnknownRoad_of_known {map : StreetMap} {dog : Dog}
    (h : (map.road? dog.motion.road).isSome = true) (time : Duration) (index : ℕ) :
    dog.move map time ≠ .error (.unknownRoad index) := by
  intro hmove
  rw [Dog.move] at hmove
  exact (Motion.advance_known h).1 index (error_of_map hmove)

private theorem neighbour_lt (map : StreetMap) {index : ℕ} {neighbour : Neighbour}
    (h : neighbour ∈ map.junctions.neighbours index) : neighbour.road < map.roads.length := by
  rw [map.junctions_eq] at h
  obtain ⟨-, road, other, -, hother, -⟩ := Junctions.mem_neighbours_ofRoads_iff.mp h
  exact (List.getElem?_eq_some_iff.mp hother).1

/-- Every run from a new game leads to an intact one, as long as there are ids
for all players. -/
theorem intact_after {maps : List StreetMap} {settings : GameSettings} {entropy : Supply UInt64}
    {tokens : Supply Token} (hnew : Game.new maps settings entropy tokens = .ok game)
    (operations : List Operation)
    (hsmall : ∀ session ∈ (game.after operations).sessions, session.players.length < 2 ^ 32) :
    (game.after operations).Intact := by
  have hstart := consistent_new hnew
  have hgame := hstart.after operations
  have hdogs : (game.after operations).EveryDog
      fun map dog => (map.road? dog.motion.road).isSome = true := by
    apply EveryDog.after anchored_invariant hstart fun _ => trivial
    rw [EveryDog, sessions_new hnew]
    exact nofun
  exact {
    tokens := hgame.tokens
    sessionPlaces := fun id place => by rw [hgame.sessionPlaces, Option.map_eq_some_iff]
    mapPlaces := fun id place => by rw [hgame.mapPlaces, Option.map_eq_some_iff]
    mapIndex := fun session hsession =>
      Option.map_eq_some_iff.mp (hgame.mapIndex session hsession)
    occupied := fun session hsession =>
      List.isEmpty_eq_false_iff.mpr (hgame.occupied session hsession)
    holder := fun place session seat player hsession hplayer =>
      hgame.holder hsmall hsession hplayer
    found := fun token handle h => hgame.found hsmall h
    noInternalError := fun operation error h => hgame.perform_error h
    noUnknownRoad := fun session hsession map hmap player hplayer time index =>
      noUnknownRoad_of_known (hdogs session hsession map hmap player hplayer) time index
    junctions := fun map _ index neighbour h => neighbour_lt map h }

/-- After two joins, a command and a step the game is intact. -/
theorem intact_after_shortRun : (onThreeRoads.after shortRun).Intact := by
  have hsmall : ∀ session ∈ (onThreeRoads.after shortRun).sessions,
      session.players.length < 2 ^ 32 := by decide +kernel
  exact intact_after new_onThreeRoads shortRun hsmall

end Game

end StreetDogs
