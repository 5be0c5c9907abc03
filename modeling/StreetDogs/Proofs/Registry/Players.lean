import StreetDogs.Proofs.Registry.Admission

/-!
# Players by map and name

A player is found again under the map and the name it joined with.  Every
operation changes what is found there in one way: a join that admits a newcomer
adds one and leaves the others, a command steers the dog of the owner of its
token, and a step of the clock moves every dog on its map.
-/

namespace StreetDogs

/-- The speed of the dogs on the map: its own when that is above zero, otherwise
the default. -/
def StreetMap.effectiveSpeed (map : StreetMap) (settings : GameSettings) : Float :=
  (map.dogSpeed.filter fun speed => decide (0.0 < speed)).getD settings.defaultDogSpeed

namespace Game

variable {game next : Game} {mapId : MapId} {name : String} {player : Player}

/-- The map of a session is the one with its identifier. -/
theorem Consistent.map_eq_findMap? (hgame : game.Consistent) {session : Session}
    (hsession : session ∈ game.sessions) :
    game.maps[session.mapIndex]? = game.findMap? session.mapId := by
  have hplace := (hgame.mapPlaces _ _).mpr (hgame.mapIndex session hsession)
  rw [findMap?, hplace, Option.bind_some]

/-- The map at the place of a session on the map is the one with its identifier. -/
theorem Consistent.exists_findMap? (hgame : game.Consistent) {place : ℕ}
    (hmapId : game.sessions[place]?.map (·.mapId) = some mapId) :
    ∃ map, game.mapAt? place = some map ∧ game.findMap? mapId = some map := by
  obtain ⟨session, hsession, rfl⟩ := Option.map_eq_some_iff.mp hmapId
  have hmem := List.mem_of_getElem? hsession
  obtain ⟨map, hmap, -⟩ := hgame.exists_map hmem
  refine ⟨map, ?_, ?_⟩
  · rw [mapAt?, hsession, Option.bind_some, hmap]
  · rw [← hgame.map_eq_findMap? hmem, hmap]

/-- The map found is the one that a newcomer is placed on. -/
theorem Admission.findMap?_eq (hgame : game.Consistent) {map : StreetMap} {place : ℕ}
    {session : Session} {newcomer : Player}
    (h : Admission game mapId name next map place session newcomer) :
    game.findMap? mapId = some map := by
  have hplace : game.mapPlaces.place? mapId = some session.mapIndex := by
    rw [hgame.mapPlaces, h.map_eq, Option.map_some, h.map_id]
  rw [findMap?, hplace, Option.bind_some, h.map_eq]

theorem speedIn_eq_effectiveSpeed {session : Session} {map : StreetMap}
    (hmap : game.maps[session.mapIndex]? = some map) :
    game.speedIn session = map.effectiveSpeed game.settings := by
  rw [speedIn, hmap, Option.bind_some, StreetMap.effectiveSpeed]
  cases map.dogSpeed with
  | none => rfl
  | some speed =>
      rw [Option.filter_some, apply_ite (Option.getD · game.settings.defaultDogSpeed)]
      simp only [decide_eq_true_iff, Option.getD_some, Option.getD_none]

/-- A player who is known gets the same answer again, and nothing changes. -/
theorem join_of_known (hgame : game.Consistent) (hname : name ≠ "")
    (hplayer : game.playerOn? mapId name = some player) :
    game.join mapId name = .ok (⟨player.token, player.id⟩, game) := by
  cases hjoin : game.join mapId name with
  | error error =>
      rcases join_error hgame hjoin with ⟨-, hempty⟩ | ⟨-, hunknown⟩ | ⟨-, -, hnone⟩
      · exact absurd hempty hname
      · obtain ⟨place, seat, hplace, -⟩ := hgame.playerOn?_eq_some.mp hplayer
        obtain ⟨session, hsession, hmapId⟩ := Option.map_eq_some_iff.mp hplace
        obtain ⟨map, hmap, hid⟩ := hgame.exists_map (List.mem_of_getElem? hsession)
        exact absurd (hid.trans hmapId) (hunknown map (List.mem_of_getElem? hmap))
      · rw [hnone] at hplayer
        cases hplayer
  | ok answer =>
      obtain ⟨joined, next⟩ := answer
      rcases join_cases hgame hjoin with
        ⟨rfl, place, session, found, hsession, rfl, hfound, rfl, rfl⟩ |
          ⟨map, place, session, newcomer, h, -⟩
      · have hsame := hgame.playerOn?_of_mem (List.mem_of_getElem? hsession) hfound
        rw [hplayer, Option.some_inj] at hsame
        rw [hsame]
      · obtain ⟨other, seat, hother, hat, hfoundName⟩ := hgame.playerOn?_eq_some.mp hplayer
        obtain ⟨found, hfound, hmapId⟩ := Option.map_eq_some_iff.mp hother
        by_cases hplace : other = place
        · rw [hplace, ← h.playerAt?_of_session] at hat
          exact absurd hfoundName (h.fresh player (List.mem_of_getElem? hat))
        · exact absurd hmapId (h.mapId_ne hgame hplace hfound)

/-- A player who is absent is admitted, or there is a reason why not. -/
theorem next_join_of_absent (hgame : game.Consistent) (habsent : game.playerOn? mapId name = none) :
    (∃ map place session newcomer,
        Admission game mapId name (game.next (.join mapId name)) map place session newcomer) ∨
      game.next (.join mapId name) = game ∧
        (name = "" ∨ (∀ map ∈ game.maps, map.id ≠ mapId) ∨ game.unusedToken? = none) := by
  cases hjoin : game.join mapId name with
  | error error =>
      have hperform : game.perform (.join mapId name) = .error error := by
        rw [perform, hjoin]
        rfl
      refine Or.inr ⟨next_of_error hperform, ?_⟩
      rcases join_error hgame hjoin with ⟨-, hempty⟩ | ⟨-, hunknown⟩ | ⟨-, hexhausted, -⟩
      · exact Or.inl hempty
      · exact Or.inr (Or.inl hunknown)
      · exact Or.inr (Or.inr hexhausted)
  | ok answer =>
      obtain ⟨joined, next⟩ := answer
      rw [next_of_ok (perform_join_eq_ok.mpr ⟨joined, hjoin⟩)]
      rcases join_cases hgame hjoin with
        ⟨-, place, session, player, hsession, rfl, hplayer, rfl, -⟩ |
          ⟨map, place, session, newcomer, h, -⟩
      · have hfound := hgame.playerOn?_of_mem (List.mem_of_getElem? hsession) hplayer
        rw [habsent] at hfound
        cases hfound
      · exact Or.inl ⟨map, place, session, newcomer, h⟩

/-- A newcomer is found under its map and name; everybody else is found as
before. -/
theorem Admission.playerOn?_eq (hgame : game.Consistent) {map : StreetMap} {place : ℕ}
    {session : Session} {newcomer : Player}
    (h : Admission game mapId name next map place session newcomer) (otherMap : MapId)
    (other : String) : next.playerOn? otherMap other =
      if otherMap = mapId ∧ other = name then some newcomer else game.playerOn? otherMap other := by
  have hnext := h.consistent hgame
  have hadmitted : next.sessions[place]?.map (·.mapId) = some mapId := by
    rw [h.sessions, if_pos rfl, Option.map_some]
    exact congrArg some h.mapId_eq
  split_ifs with hsame
  · rw [hsame.1, hsame.2]
    exact hnext.playerOn?_eq_some.mpr ⟨place, session.players.length, hadmitted,
      by rw [h.playerAt?_eq, if_pos ⟨rfl, rfl⟩], h.newcomer_name⟩
  · ext found
    rw [hnext.playerOn?_eq_some, hgame.playerOn?_eq_some]
    constructor
    · rintro ⟨otherPlace, seat, hmapId, hfound, hfoundName⟩
      rcases h.playerAt?_cases hfound with hold | ⟨rfl, -, rfl⟩
      · refine ⟨otherPlace, seat, ?_, hold, hfoundName⟩
        obtain ⟨found, hfound, -⟩ := playerAt?_eq_some.mp hold
        obtain ⟨after, hafter, hafterMap⟩ := h.exists_session hfound
        rw [hafter, Option.map_some, hafterMap] at hmapId
        rw [hfound, Option.map_some, hmapId]
      · rw [hadmitted, Option.some_inj] at hmapId
        exact absurd ⟨hmapId.symm, hfoundName.symm.trans h.newcomer_name⟩ hsame
    · rintro ⟨otherPlace, seat, hmapId, hfound, hfoundName⟩
      obtain ⟨foundSession, hsession, hseat⟩ := playerAt?_eq_some.mp hfound
      obtain ⟨after, hafter, hafterMap⟩ := h.exists_session hsession
      refine ⟨otherPlace, seat, ?_, ?_, hfoundName⟩
      · rw [hsession, Option.map_some] at hmapId
        rw [hafter, Option.map_some, hafterMap, hmapId]
      · rw [h.playerAt?_eq, if_neg, hfound]
        rintro ⟨rfl, rfl⟩
        rw [h.playerAt?_eq_none] at hfound
        cases hfound

/-- A join changes nothing for anybody but the player who joins. -/
theorem playerOn?_next_join (hgame : game.Consistent) {otherMap : MapId} {other : String}
    (hother : ¬ (otherMap = mapId ∧ other = name)) :
    (game.next (.join mapId name)).playerOn? otherMap other = game.playerOn? otherMap other := by
  rcases next_join_cases hgame mapId name with ⟨map, place, session, newcomer, h⟩ | hsame
  · rw [h.playerOn?_eq hgame, if_neg hother]
  · rw [hsame]

/-- A player found while the rosters stay was found before. -/
theorem SameRosters.exists_playerOn? (hgame : game.Consistent) (h : game.SameRosters next)
    (hplayer : next.playerOn? mapId name = some player) :
    ∃ old, game.playerOn? mapId name = some old ∧ player.entry = old.entry := by
  obtain ⟨place, seat, hmapId, hat, hname⟩ :=
    (hgame.of_sameRosters h).playerOn?_eq_some.mp hplayer
  obtain ⟨old, hold, hentry⟩ := h.exists_player hat
  have hsame : player.name = old.name := congrArg (·.2.1) hentry
  exact ⟨old, hgame.playerOn?_eq_some.mpr
    ⟨place, seat, (h.mapId_getElem? place).symm.trans hmapId, hold, hsame.symm.trans hname⟩,
      hentry⟩

/-- When every player of a map changes alike and the rosters stay, so does the
player found. -/
theorem SameRosters.playerOn?_eq (hgame : game.Consistent) (h : game.SameRosters next)
    {change : Player → Player}
    (hchange : ∀ place seat player, game.sessions[place]?.map (·.mapId) = some mapId →
      game.playerAt? place seat = some player →
        next.playerAt? place seat = some (change player)) (name : String) :
    next.playerOn? mapId name = (game.playerOn? mapId name).map change := by
  have hnext := hgame.of_sameRosters h
  cases hplayer : game.playerOn? mapId name with
  | some player =>
      obtain ⟨place, seat, hmapId, hat, hname⟩ := hgame.playerOn?_eq_some.mp hplayer
      have hafter := hchange place seat player hmapId hat
      obtain ⟨old, hold, hentry⟩ := h.exists_player hafter
      obtain rfl := Option.some.inj (hat.symm.trans hold)
      have hsame : (change player).name = player.name := congrArg (·.2.1) hentry
      exact hnext.playerOn?_eq_some.mpr
        ⟨place, seat, (h.mapId_getElem? place).trans hmapId, hafter, hsame.trans hname⟩
  | none =>
      refine Option.eq_none_iff_forall_ne_some.mpr fun player hafter => ?_
      obtain ⟨old, hold, -⟩ := h.exists_playerOn? hgame hafter
      rw [hplayer] at hold
      cases hold

/-- A command steers the dog of the owner of the token, and nobody else's. -/
theorem playerOn?_next_setHeading (hgame : game.Consistent)
    (hsmall : ∀ session ∈ game.sessions, session.players.length < 2 ^ 32) (token : Token)
    (heading : Heading) (mapId : MapId) (name : String) :
    (game.next (.setHeading token heading)).playerOn? mapId name =
      (game.playerOn? mapId name).map fun player =>
        if player.token = token then
          match game.findMap? mapId with
          | some map =>
            { player with dog := player.dog.steer heading (map.effectiveSpeed game.settings) }
          | none => player
        else player := by
  cases hperform : game.perform (.setHeading token heading) with
  | error error =>
      obtain ⟨-, hunknown⟩ := hgame.setHeading_error hperform
      rw [next_of_error hperform]
      cases hplayer : game.playerOn? mapId name with
      | none => rfl
      | some player =>
          obtain ⟨place, seat, -, hat, -⟩ := hgame.playerOn?_eq_some.mp hplayer
          have hother := findByToken?_eq_none_iff.mp hunknown place seat player hat
          rw [Option.map_some, if_neg hother]
  | ok next =>
      rw [next_of_ok hperform]
      have hset : game.setHeading token heading = .ok next := hperform
      refine (sameRosters_setHeading hset).playerOn?_eq hgame
        (fun place seat player hmapId hat => ?_) name
      obtain ⟨handle, session, owner, hhandle, hsession, howner, hplayers⟩ :=
        playerAt?_setHeading hset
      obtain ⟨seat', owner', howner', htoken, hid⟩ := exists_of_findByToken? hhandle
      obtain ⟨found, hfound, hseat⟩ := playerAt?_eq_some.mp howner'
      have hmem := List.mem_of_getElem? hfound
      have hseat' := hgame.toNat_id hmem (hsmall found hmem) hseat
      rw [hid] at hseat'
      obtain ⟨map, hmap, hmapFound⟩ := hgame.exists_findMap? hmapId
      rw [hplayers, hat, hmapFound]
      by_cases hown : player.token = token
      · obtain ⟨rfl, rfl⟩ := hgame.tokens place handle.session seat seat' player owner' hat howner'
          (hown.trans htoken.symm)
        rw [mapAt?, hsession, Option.bind_some] at hmap
        rw [if_pos ⟨rfl, hseat'.symm⟩, Option.map_some, if_pos hown,
          speedIn_eq_effectiveSpeed hmap]
      · rw [if_neg, if_neg hown]
        rintro ⟨rfl, rfl⟩
        rw [hseat', howner', Option.some_inj] at hat
        exact hown (hat ▸ htoken)

/-- A step of the clock moves every dog on the map it belongs to. -/
theorem playerOn?_next_advance (hgame : game.Consistent) (time : Duration) (mapId : MapId)
    (name : String) : (game.next (.advance time)).playerOn? mapId name =
      (game.playerOn? mapId name).map fun player =>
        match game.findMap? mapId with
        | some map => Session.movePlayer map time player
        | none => player := by
  refine (sameRosters_advance game time).playerOn?_eq hgame (fun place seat player hmapId hat => ?_)
    name
  obtain ⟨map, hmapAt, hfound⟩ := hgame.exists_findMap? hmapId
  rw [hfound, playerAt?_advance, hat, Option.map_some, movedAt, hmapAt]
  exact congrArg some (Session.movePlayer_eq map time player).symm

end Game

end StreetDogs
