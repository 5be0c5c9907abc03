import StreetDogs.Proofs.Registry.Integrity
import StreetDogs.Proofs.Registry.Rejoin
import StreetDogs.Proofs.Registry.StepOrder

/-!
# Commands reach their owners

A token is known exactly when some join answered it.  A command under a known
token reaches the player who got it, by way of the place of the session and the
id of the player, and sets the dog of that player to the speed of its map.  It
leaves everything else as it is.
-/

namespace StreetDogs.Game

variable {game start : Game} {seat : Seat} {session : Session} {player : Player} {map : StreetMap}
  {token : Token} {record : JoinRecord} {records : List JoinRecord}

/-- The player at the seat is the one who joined as recorded. -/
structure Seats (game : Game) (record : JoinRecord) (seat : Seat) (player : Player) : Prop where
  mapId_eq : game.sessions[seat.place]?.map (·.mapId) = some record.mapId
  player_eq : game.playerAt? seat.place seat.index = some player
  name_eq : player.name = record.name
  answer_eq : record.answer = ⟨player.token, player.id⟩

/-- Everybody who joined has a seat. -/
theorem Follows.exists_seat (h : Follows records game) (hrecord : record ∈ records) :
    ∃ seat player, game.Seats record seat player := by
  obtain ⟨place, index, session, player, hsession, hmapId, hplayer, hname, hanswer⟩ :=
    h.answers record hrecord
  refine ⟨⟨place, index⟩, player, ?_, hplayer, hname, hanswer⟩
  rw [hsession, Option.map_some, hmapId]

/-- Everybody who has a seat has joined. -/
theorem Follows.exists_record (hgame : game.Consistent) (h : Follows records game) (seat : Seat)
    (hplayer : game.playerAt? seat.place seat.index = some player) :
    ∃ record ∈ records, game.Seats record seat player := by
  obtain ⟨session, hsession, hindex⟩ := playerAt?_eq_some.mp hplayer
  have hmem := List.mem_of_getElem? hsession
  have hmember := List.mem_of_getElem? hindex
  have hknown : player.name ∈ namesJoined records session.mapId := by
    rw [← h.names session hmem]
    exact List.mem_map_of_mem hmember
  obtain ⟨record, hrecord, hmapId, hname⟩ := mem_namesJoined.mp hknown
  obtain ⟨joined, hjoined, hanswer⟩ := h.exists_playerOn? hgame hrecord
  rw [hmapId, hname, hgame.playerOn?_of_mem hmem hmember, Option.some_inj] at hjoined
  refine ⟨record, hrecord, ?_, hplayer, hname.symm, hjoined ▸ hanswer⟩
  rw [hsession, Option.map_some, hmapId]

/-- A command under the token of a player steers the dog at the seat of the
player, as far as the ids of its session tell the seats. -/
theorem Consistent.setHeading_eq_withDog (hgame : game.Consistent)
    (hsession : game.sessions[seat.place]? = some session)
    (hsmall : session.players.length < 2 ^ 32)
    (hplayer : session.players[seat.index]? = some player) (heading : Heading) :
    game.setHeading player.token heading =
      .ok (game.withDog seat (player.dog.steer heading (game.speedIn session))) := by
  have hid := hgame.toNat_id (List.mem_of_getElem? hsession) hsmall hplayer
  have hfound := hgame.findByToken?_eq_some (playerAt?_eq_some.mpr ⟨session, hsession, hplayer⟩)
  rw [setHeading, hfound]
  simp only [hsession, Session.player?_eq_some hplayer hid]
  rw [withDog, Session.updateDog, hid, List.modify_eq_set_getElem?, hplayer,
    List.modify_eq_set_getElem?, hsession]
  simp only [Option.map_eq_map, Option.map_some, Option.getD_some, List.modify_eq_set_getElem?,
    hplayer]

/-- A command under the token of a join steers the dog of the one who joined, at
the speed of the map that was joined. -/
theorem Seats.setHeading_eq (hgame : game.Consistent)
    (hsmall : ∀ session ∈ game.sessions, session.players.length < 2 ^ 32)
    (h : game.Seats record seat player) (heading : Heading) :
    ∃ map ∈ game.maps, map.id = record.mapId ∧
      game.setHeading record.answer.token heading =
        .ok (game.withDog seat (player.dog.steer heading (map.effectiveSpeed game.settings))) := by
  obtain ⟨session, hsession, hindex⟩ := playerAt?_eq_some.mp h.player_eq
  have hmem := List.mem_of_getElem? hsession
  have hmapId := h.mapId_eq
  rw [hsession, Option.map_some, Option.some_inj] at hmapId
  obtain ⟨map, hmap, hid⟩ := hgame.exists_map hmem
  refine ⟨map, List.mem_of_getElem? hmap, hid.trans hmapId, ?_⟩
  rw [h.answer_eq, ← speedIn_eq_effectiveSpeed hmap]
  exact hgame.setHeading_eq_withDog hsession (hsmall session hmem) hindex heading

/-- A token that no join has answered belongs to nobody. -/
theorem Follows.findByToken?_eq_none (hgame : game.Consistent) (h : Follows records game)
    (hunknown : ∀ record ∈ records, record.answer.token ≠ token) :
    game.findByToken? token = none := by
  rw [findByToken?_eq_none_iff]
  intro place index player hplayer htoken
  obtain ⟨record, hrecord, hseats⟩ := h.exists_record hgame ⟨place, index⟩ hplayer
  exact hunknown record hrecord (by rw [hseats.answer_eq, htoken])

/-- A command under a token that no join has answered is refused. -/
theorem Follows.setHeading_unknown (hgame : game.Consistent) (h : Follows records game)
    (hunknown : ∀ record ∈ records, record.answer.token ≠ token) (heading : Heading) :
    game.setHeading token heading = .error .unknownToken := by
  rw [setHeading, h.findByToken?_eq_none hgame hunknown]

/-- A command succeeds exactly when its token was answered by a join.  It then
gives the dog of the player who joined the heading and the velocity of the
heading at the speed of the map, as a command and as what it reports; the dog
keeps its road and position, and nothing else changes.  Under any other token a
command is refused, and nothing changes. -/
theorem setHeading_steers {maps : List StreetMap} {settings : GameSettings}
    {entropy : Supply UInt64} {tokens : Supply Token}
    (hnew : Game.new maps settings entropy tokens = .ok start) (operations : List Operation)
    (hsmall : ∀ session ∈ (start.after operations).sessions, session.players.length < 2 ^ 32)
    (token : Token) (heading : Heading) :
    let game := start.after operations
    let records := joinsOf (start.trace operations)
    ((∃ next, game.setHeading token heading = .ok next) ↔
      ∃ record ∈ records, record.answer.token = token) ∧
    (∀ record ∈ records, record.answer.token = token →
      ∃ seat player, game.Seats record seat player ∧ ∃ map ∈ maps, map.id = record.mapId ∧
        let velocity := heading.unit * map.effectiveSpeed settings
        let next := game.withDog seat
          ⟨heading, velocity, ⟨player.dog.motion.road, player.dog.motion.position, velocity⟩⟩
        game.setHeading token heading = .ok next ∧
          Update.setHeading token heading game = .ok () next) ∧
    ((∀ record ∈ records, record.answer.token ≠ token) →
      game.setHeading token heading = .error .unknownToken ∧
        Update.setHeading token heading game = .error .unknownToken game) := by
  intro game records
  have hstart := consistent_new hnew
  have hgame : game.Consistent := hstart.after operations
  have hfollows : Follows records game := follows_after hstart (sessions_new hnew) operations
  obtain ⟨hmaps, hsettings⟩ : game.maps = maps ∧ game.settings = settings := by
    obtain ⟨hmaps, hsettings⟩ := maps_settings_after hstart operations
    obtain ⟨mapPlaces, -, rfl⟩ := new_eq_ok hnew
    exact ⟨hmaps, hsettings⟩
  have hrefused (hunknown : ∀ record ∈ records, record.answer.token ≠ token) :=
    hfollows.setHeading_unknown hgame hunknown heading
  refine ⟨⟨?_, ?_⟩, ?_, ?_⟩
  · rintro ⟨next, hnext⟩
    by_contra hnone
    rw [hrefused fun record hrecord htoken => hnone ⟨record, hrecord, htoken⟩] at hnext
    cases hnext
  · rintro ⟨record, hrecord, rfl⟩
    obtain ⟨seat, player, hseats⟩ := hfollows.exists_seat hrecord
    obtain ⟨map, -, -, hset⟩ := hseats.setHeading_eq hgame hsmall heading
    exact ⟨_, hset⟩
  · rintro record hrecord rfl
    obtain ⟨seat, player, hseats⟩ := hfollows.exists_seat hrecord
    obtain ⟨map, hmap, hid, hset⟩ := hseats.setHeading_eq hgame hsmall heading
    rw [hmaps] at hmap
    rw [hsettings] at hset
    refine ⟨seat, player, hseats, map, hmap, hid, hset, ?_⟩
    rw [Update.setHeading, hset]
    rfl
  · intro hunknown
    exact ⟨hrefused hunknown, by rw [Update.setHeading, hrefused hunknown]⟩

/-- Ada, who joined after Rex, sends her dog east; a token of nobody is refused. -/
theorem setHeading_steers_shortRun :
    let game := onThreeRoads.after shortRun
    (∃ seat player, game.Seats ⟨"town", "Ada", ⟨Token.ofNumber 1, 1⟩⟩ seat player ∧
      ∃ map ∈ [StreetMap.threeRoads], map.id = "town" ∧
        game.setHeading (Token.ofNumber 1) .east = .ok (game.withDog seat
          ⟨.east, Heading.east.unit * map.effectiveSpeed {}, ⟨player.dog.motion.road,
            player.dog.motion.position, Heading.east.unit * map.effectiveSpeed {}⟩⟩)) ∧
      game.setHeading (Token.ofNumber 7) .east = .error .unknownToken := by
  intro game
  have hsmall : ∀ session ∈ (onThreeRoads.after shortRun).sessions,
      session.players.length < 2 ^ 32 := by decide +kernel
  have hjoined : ⟨"town", "Ada", ⟨Token.ofNumber 1, 1⟩⟩ ∈ joinsOf (onThreeRoads.trace shortRun) :=
    by decide +kernel
  have hunknown : ∀ record ∈ joinsOf (onThreeRoads.trace shortRun),
      record.answer.token ≠ Token.ofNumber 7 := by decide +kernel
  obtain ⟨-, hsteers, -⟩ :=
    setHeading_steers new_onThreeRoads shortRun hsmall (Token.ofNumber 1) .east
  obtain ⟨-, -, hrefused⟩ :=
    setHeading_steers new_onThreeRoads shortRun hsmall (Token.ofNumber 7) .east
  obtain ⟨seat, player, hseats, map, hmap, hid, hset, -⟩ := hsteers _ hjoined rfl
  exact ⟨⟨seat, player, hseats, map, hmap, hid, hset⟩, (hrefused hunknown).1⟩

end StreetDogs.Game
