import StreetDogs.Proofs.Registry.Consistency
import StreetDogs.Proofs.Registry.Drawing

/-!
# Joins

A join that succeeds either finds the player again and changes nothing, or
admits a newcomer: it appends one player with a fresh token to one session,
which it opens first if the map has none.  Either keeps the registry
consistent, and no join fails for an internal reason.
-/

namespace StreetDogs

def Session.withPlayer (session : Session) (newcomer : Player) : Session :=
  { session with players := session.players ++ [newcomer] }

namespace Game

variable {game next : Game} {mapId : MapId} {name : String} {joined : Joined}

/-- What admitting a newcomer to the session at a place does to a game. -/
structure Admission (game : Game) (mapId : MapId) (name : String) (next : Game) (map : StreetMap)
    (place : ℕ) (session : Session) (newcomer : Player) : Prop where
  /-- The session existed, or is opened at the end of the list. -/
  origin : game.sessions[place]? = some session ∨
    place = game.sessions.length ∧ session.players = [] ∧
      ∀ other ∈ game.sessions, other.mapId ≠ mapId
  mapId_eq : session.mapId = mapId
  map_eq : game.maps[session.mapIndex]? = some map
  map_id : map.id = mapId
  name_ne : name ≠ ""
  fresh : ∀ player ∈ session.players, player.name ≠ name
  newcomer_name : newcomer.name = name
  newcomer_id : newcomer.id = UInt32.ofNat session.players.length
  newcomer_token : game.findByToken? newcomer.token = none
  newcomer_dog : newcomer.dog = (Dog.spawn map game.settings.randomizeSpawn game.words).1
  drawn : game.unusedToken? = some (newcomer.token, next.tokens)
  sessions : ∀ other : ℕ, next.sessions[other]? =
    if other = place then some (session.withPlayer newcomer) else game.sessions[other]?
  sessionPlaces : ∀ id, next.sessionPlaces.place? id =
    if id = mapId then some place else game.sessionPlaces.place? id
  maps : next.maps = game.maps
  mapPlaces : next.mapPlaces = game.mapPlaces
  settings : next.settings = game.settings

/-- The session that a join leads to. -/
theorem withSession_cases (hgame : game.Consistent) (map : StreetMap) (mapPlace : ℕ) :
    (∃ place session, game.withSession map mapPlace = (game, place) ∧
        game.sessions[place]? = some session ∧ session.mapId = map.id) ∨
      (∀ session ∈ game.sessions, session.mapId ≠ map.id) ∧
        game.withSession map mapPlace =
          ({ game with
              sessions := game.sessions ++ [{ mapId := map.id, mapIndex := mapPlace }]
              sessionPlaces := game.sessionPlaces.insert map.id game.sessions.length },
            game.sessions.length) := by
  rw [withSession]
  cases hplace : game.sessionPlaces.place? map.id with
  | some place =>
      left
      obtain ⟨session, hsession, hmapId⟩ :=
        Option.map_eq_some_iff.mp ((hgame.sessionPlaces map.id place).mp hplace)
      exact ⟨place, session, rfl, hsession, hmapId⟩
  | none =>
      right
      refine ⟨?_, rfl⟩
      intro session hsession hmapId
      obtain ⟨place, hsession⟩ := List.mem_iff_getElem?.mp hsession
      have hfound := hgame.place?_of_session hsession
      rw [hmapId, hplace] at hfound
      cases hfound

/-- An empty session holds no token. -/
private theorem findByToken?_open (token : Token) (mapId : MapId) (mapIndex : ℕ)
    (sessionPlaces : Directory) :
    ({ game with
        sessions := game.sessions ++ [{ mapId, mapIndex }]
        sessionPlaces } : Game).findByToken? token = game.findByToken? token := by
  simp [findByToken?, List.zipIdx_append, List.findSome?_append, Session.playerWithToken?]

/-- Opening a session draws no token. -/
private theorem unusedToken?_open (mapId : MapId) (mapIndex : ℕ) (sessionPlaces : Directory) :
    ({ game with
        sessions := game.sessions ++ [{ mapId, mapIndex }]
        sessionPlaces } : Game).unusedToken? = game.unusedToken? := by
  simp only [unusedToken?, findByToken?_open]

private theorem getElem?_set_of_lt {sessions : List Session} {place : ℕ} {old : Session}
    (hold : sessions[place]? = some old) (session : Session) (other : ℕ) :
    (sessions.set place session)[other]? =
      if other = place then some session else sessions[other]? := by
  obtain ⟨hlt, -⟩ := List.getElem?_eq_some_iff.mp hold
  by_cases h : other = place
  · rw [if_pos h, h, List.getElem?_set_self hlt]
  · rw [if_neg h, List.getElem?_set_ne (Ne.symm h)]

private theorem getElem?_set_concat {sessions : List Session} (opened session : Session)
    (other : ℕ) :
    ((sessions ++ [opened]).set sessions.length session)[other]? =
      if other = sessions.length then some session else sessions[other]? := by
  rw [getElem?_set_of_lt List.getElem?_concat_length]
  by_cases h : other = sessions.length
  · rw [if_pos h, if_pos h]
  · rw [if_neg h, if_neg h, List.getElem?_append]
    split_ifs with hlt
    · rfl
    · rw [List.getElem?_eq_none (by simp; omega), List.getElem?_eq_none (by omega)]

/-- The map of a session is the one with its identifier. -/
private theorem Consistent.map_of_session (hgame : game.Consistent) {session : Session}
    {map : StreetMap} {mapPlace : ℕ} (hsession : session ∈ game.sessions)
    (hsessionMap : session.mapId = mapId) (hmap : game.maps[mapPlace]? = some map)
    (hmapId : map.id = mapId) : game.maps[session.mapIndex]? = some map := by
  have hplace := (hgame.mapPlaces _ _).mpr (hgame.mapIndex session hsession)
  have hplace' : game.mapPlaces.place? mapId = some mapPlace := by
    rw [hgame.mapPlaces, hmap, Option.map_some, hmapId]
  rw [hsessionMap, hplace'] at hplace
  rw [← Option.some.inj hplace, hmap]

private theorem Consistent.place?_eq_ite (hgame : game.Consistent) {session : Session}
    {place : ℕ} (hsession : game.sessions[place]? = some session)
    (hsessionMap : session.mapId = mapId) (id : MapId) :
    game.sessionPlaces.place? id =
      if id = mapId then some place else game.sessionPlaces.place? id := by
  split_ifs with h
  · rw [h, ← hsessionMap, hgame.place?_of_session hsession]
  · rfl

/-- The part of a join that comes after the session is found. -/
def enrol (opened : Game) (map : StreetMap) (place : ℕ) (session : Session)
    (name : String) : Except GameError (Joined × Game) :=
  match session.playerNamed? name with
  | some player => .ok (⟨player.token, player.id⟩, opened)
  | none =>
    match opened.unusedToken? with
    | none => .error .tokensExhausted
    | some (token, tokens) =>
      let (player, session, words) :=
        session.join name map opened.settings.randomizeSpawn opened.words token
      .ok (⟨player.token, player.id⟩,
        { opened with sessions := opened.sessions.set place session, words, tokens })

/-- A join finds the map, then its session, and enrols there. -/
theorem join_eq {map : StreetMap} {place mapPlace : ℕ} {session : Session} {opened : Game}
    (hname : name ≠ "") (hplace : game.mapPlaces.place? mapId = some mapPlace)
    (hmap : game.maps[mapPlace]? = some map)
    (hopened : game.withSession map mapPlace = (opened, place))
    (hsession : opened.sessions[place]? = some session) :
    game.join mapId name = opened.enrol map place session name := by
  have hempty : ¬ name.isEmpty = true := by simpa using hname
  rw [join, if_neg hempty]
  simp only [hplace, hmap, hopened, hsession]
  rfl

/-- A known name leads to its player, an unknown one to a newcomer. -/
private theorem enrol_cases {opened : Game} {session : Session} {map : StreetMap} {place : ℕ}
    (h : opened.enrol map place session name = .ok (joined, next)) :
    (∃ player ∈ session.players, player.name = name ∧ joined = ⟨player.token, player.id⟩ ∧
        next = opened) ∨
      (∀ player ∈ session.players, player.name ≠ name) ∧
        ∃ newcomer : Player, newcomer.name = name ∧
          newcomer.id = UInt32.ofNat session.players.length ∧
          newcomer.dog = (Dog.spawn map opened.settings.randomizeSpawn opened.words).1 ∧
          joined = ⟨newcomer.token, newcomer.id⟩ ∧ ∃ words tokens,
            opened.unusedToken? = some (newcomer.token, tokens) ∧
              next = { opened with
                sessions := opened.sessions.set place (session.withPlayer newcomer)
                words
                tokens } := by
  rw [enrol] at h
  cases hname : session.playerNamed? name with
  | some player =>
      simp only [hname, Except.ok.injEq, Prod.mk.injEq] at h
      obtain ⟨hjoined, hnext⟩ := h
      have hplayer := List.find?_some hname
      exact Or.inl ⟨player, List.mem_of_find?_eq_some hname, beq_iff_eq.mp hplayer,
        hjoined.symm, hnext.symm⟩
  | none =>
      right
      have hfresh : ∀ player ∈ session.players, player.name ≠ name := by
        intro player hplayer heq
        exact List.find?_eq_none.mp hname player hplayer (beq_iff_eq.mpr heq)
      simp only [hname] at h
      cases htoken : opened.unusedToken? with
      | none => simp [htoken] at h
      | some drawn =>
          obtain ⟨token, tokens⟩ := drawn
          simp only [htoken, Session.join, hname, Except.ok.injEq, Prod.mk.injEq] at h
          obtain ⟨hjoined, hnext⟩ := h
          exact ⟨hfresh, ⟨UInt32.ofNat session.players.length, name, token,
            (Dog.spawn map opened.settings.randomizeSpawn opened.words).1⟩, rfl, rfl,
            rfl, hjoined.symm, _, tokens, rfl, hnext.symm⟩

theorem join_empty (game : Game) (mapId : MapId) : game.join mapId "" = .error .emptyName := rfl

/-- A join that succeeds finds the player again or admits a newcomer. -/
theorem join_cases (hgame : game.Consistent) (h : game.join mapId name = .ok (joined, next)) :
    (next = game ∧ ∃ (place : ℕ) (session : Session) (player : Player),
        game.sessions[place]? = some session ∧ session.mapId = mapId ∧
          player ∈ session.players ∧ player.name = name ∧
            joined = ⟨player.token, player.id⟩) ∨
      ∃ map place session newcomer,
        Admission game mapId name next map place session newcomer ∧
          joined = ⟨newcomer.token, newcomer.id⟩ := by
  have hname : name ≠ "" := by
    rintro rfl
    rw [join_empty] at h
    cases h
  cases hplace : game.mapPlaces.place? mapId with
  | none =>
      rw [join] at h
      split_ifs at h
      simp [hplace] at h
  | some mapPlace =>
      obtain ⟨map, hmap, hmapId⟩ :=
        Option.map_eq_some_iff.mp ((hgame.mapPlaces mapId mapPlace).mp hplace)
      rcases withSession_cases hgame map mapPlace with
        ⟨place, session, hopened, hsession, hsessionMap⟩ | ⟨hnew, hopened⟩
      · rw [join_eq hname hplace hmap hopened hsession] at h
        rw [hmapId] at hsessionMap
        rcases enrol_cases h with ⟨player, hplayer, hplayerName, hjoined, hnext⟩ |
          ⟨hfresh, newcomer, hnewName, hid, hdog, hjoined, words, tokens, hdrawn, rfl⟩
        · exact Or.inl ⟨hnext, place, session, player, hsession, hsessionMap,
            hplayer, hplayerName, hjoined⟩
        · right
          refine ⟨map, place, session, newcomer, ?_, hjoined⟩
          exact {
            origin := .inl hsession
            mapId_eq := hsessionMap
            map_eq := hgame.map_of_session (List.mem_of_getElem? hsession) hsessionMap hmap hmapId
            map_id := hmapId
            name_ne := hname
            fresh := hfresh
            newcomer_name := hnewName
            newcomer_id := hid
            newcomer_token := findByToken?_of_unusedToken? hdrawn
            newcomer_dog := hdog
            drawn := hdrawn
            sessions := fun other => getElem?_set_of_lt hsession _ other
            sessionPlaces := fun id => hgame.place?_eq_ite hsession hsessionMap id
            maps := rfl
            mapPlaces := rfl
            settings := rfl }
      · have hopenedAt : (game.sessions ++ [{ mapId := map.id, mapIndex := mapPlace }])[
            game.sessions.length]? = some { mapId := map.id, mapIndex := mapPlace } :=
          List.getElem?_concat_length
        rw [join_eq hname hplace hmap hopened hopenedAt] at h
        rw [hmapId] at hnew
        rcases enrol_cases h with ⟨player, hplayer, -⟩ |
          ⟨hfresh, newcomer, hnewName, hid, hdog, hjoined, words, tokens, hdrawn, rfl⟩
        · cases hplayer
        · right
          rw [unusedToken?_open] at hdrawn
          refine ⟨map, game.sessions.length, { mapId := map.id, mapIndex := mapPlace }, newcomer,
            ?_, hjoined⟩
          exact {
            origin := .inr ⟨rfl, rfl, hnew⟩
            mapId_eq := hmapId
            map_eq := hmap
            map_id := hmapId
            name_ne := hname
            fresh := hfresh
            newcomer_name := hnewName
            newcomer_id := hid
            newcomer_token := findByToken?_of_unusedToken? hdrawn
            newcomer_dog := hdog
            drawn := hdrawn
            sessions := fun other => getElem?_set_concat _ _ other
            sessionPlaces := fun id => by rw [Directory.place?_insert, hmapId]
            maps := rfl
            mapPlaces := rfl
            settings := rfl }

/-! ## Preservation -/

namespace Admission

variable {map : StreetMap} {place : ℕ} {session : Session} {newcomer : Player}

/-- A session after an admission is an old one or the one that admitted. -/
theorem session_cases (h : Admission game mapId name next map place session newcomer)
    {other : ℕ} {found : Session} (hfound : next.sessions[other]? = some found) :
    other ≠ place ∧ game.sessions[other]? = some found ∨
      other = place ∧ found = session.withPlayer newcomer := by
  rw [h.sessions] at hfound
  split_ifs at hfound with hplace
  · exact Or.inr ⟨hplace, (Option.some.inj hfound).symm⟩
  · exact Or.inl ⟨hplace, hfound⟩

/-- A session before an admission is still on its map after it. -/
theorem exists_session (h : Admission game mapId name next map place session newcomer)
    {other : ℕ} {found : Session} (hfound : game.sessions[other]? = some found) :
    ∃ after, next.sessions[other]? = some after ∧ after.mapId = found.mapId := by
  rw [h.sessions]
  by_cases hother : other = place
  · rw [if_pos hother]
    rcases h.origin with hsession | ⟨hplace, -, -⟩
    · rw [hother, hsession] at hfound
      exact ⟨_, rfl, congrArg (·.mapId) (Option.some.inj hfound)⟩
    · rw [hother, hplace, List.getElem?_eq_none (Nat.le_refl _)] at hfound
      cases hfound
  · rw [if_neg hother]
    exact ⟨found, hfound, rfl⟩

/-- An admission opens at most one session. -/
theorem length_le (h : Admission game mapId name next map place session newcomer) :
    next.sessions.length ≤ game.sessions.length + 1 := by
  by_contra hlength
  have hplace : game.sessions.length + 1 ≠ place := by
    rcases h.origin with hsession | ⟨hplace, -⟩
    · obtain ⟨hlt, -⟩ := List.getElem?_eq_some_iff.mp hsession
      omega
    · omega
  have hsessions := h.sessions (game.sessions.length + 1)
  rw [if_neg hplace, List.getElem?_eq_none (Nat.le_succ _), List.getElem?_eq_none_iff] at hsessions
  exact hlength hsessions

/-- The players of the session sat there before the admission. -/
theorem playerAt?_of_session (h : Admission game mapId name next map place session newcomer)
    (seat : ℕ) : session.players[seat]? = game.playerAt? place seat := by
  rcases h.origin with hsession | ⟨hplace, hempty, -⟩
  · rw [playerAt?, hsession, Option.bind_some]
  · rw [playerAt?, hempty, hplace, List.getElem?_eq_none (Nat.le_refl _), Option.bind_none]
    rfl

/-- Nobody sits where the newcomer is admitted. -/
theorem playerAt?_eq_none (h : Admission game mapId name next map place session newcomer) :
    game.playerAt? place session.players.length = none := by
  rw [← h.playerAt?_of_session, List.getElem?_eq_none (Nat.le_refl _)]

/-- The players after an admission are the old ones and the newcomer. -/
theorem playerAt?_eq (h : Admission game mapId name next map place session newcomer)
    (other seat : ℕ) : next.playerAt? other seat =
      if other = place ∧ seat = session.players.length then some newcomer
      else game.playerAt? other seat := by
  rw [playerAt?, h.sessions]
  by_cases hother : other = place
  · rw [if_pos hother, Option.bind_some, Session.withPlayer, List.getElem?_append,
      h.playerAt?_of_session, hother, List.getElem?_singleton]
    have hnone : session.players.length ≤ seat → game.playerAt? place seat = none := by
      intro hle
      rw [← h.playerAt?_of_session, List.getElem?_eq_none hle]
    split_ifs with hlt hzero hseat hseat
    · omega
    · rfl
    · rfl
    · omega
    · omega
    · exact (hnone (by omega)).symm
  · rw [if_neg hother, if_neg fun h => hother h.1]
    rfl

/-- A player after an admission is an old one or the newcomer. -/
theorem playerAt?_cases (h : Admission game mapId name next map place session newcomer)
    {other seat : ℕ} {player : Player} (hplayer : next.playerAt? other seat = some player) :
    game.playerAt? other seat = some player ∨
      other = place ∧ seat = session.players.length ∧ player = newcomer := by
  rw [h.playerAt?_eq] at hplayer
  split_ifs at hplayer with hseat
  · exact Or.inr ⟨hseat.1, hseat.2, (Option.some.inj hplayer).symm⟩
  · exact Or.inl hplayer

/-- No other session is on the map. -/
theorem mapId_ne (hgame : game.Consistent)
    (h : Admission game mapId name next map place session newcomer) {other : ℕ} {found : Session}
    (hother : other ≠ place) (hfound : game.sessions[other]? = some found) :
    found.mapId ≠ mapId := by
  rcases h.origin with hsession | ⟨-, -, hnew⟩
  · intro hmapId
    rw [← h.mapId_eq] at hmapId
    exact hother (hgame.place_unique hfound hsession hmapId)
  · exact hnew found (List.mem_of_getElem? hfound)

private theorem sessionPlaces_iff (hgame : game.Consistent)
    (h : Admission game mapId name next map place session newcomer) (id : MapId) (other : ℕ) :
    next.sessionPlaces.place? id = some other ↔
      next.sessions[other]?.map (·.mapId) = some id := by
  have hadmitted : (session.withPlayer newcomer).mapId = mapId := h.mapId_eq
  rw [h.sessionPlaces, h.sessions]
  by_cases hid : id = mapId
  · rw [if_pos hid, Option.some_inj]
    constructor
    · rintro rfl
      rw [if_pos rfl, Option.map_some, hadmitted, hid]
    · intro hfound
      by_contra hother
      rw [if_neg (Ne.symm hother)] at hfound
      obtain ⟨found, hold, hmapId⟩ := Option.map_eq_some_iff.mp hfound
      exact h.mapId_ne hgame (Ne.symm hother) hold (hmapId.trans hid)
  · rw [if_neg hid, hgame.sessionPlaces]
    by_cases hother : other = place
    · rw [if_pos hother, Option.map_some, hadmitted, Option.some_inj]
      apply iff_of_false _ (Ne.symm hid)
      intro hfound
      obtain ⟨found, hold, hmapId⟩ := Option.map_eq_some_iff.mp hfound
      rcases h.origin with hsession | ⟨hplace, -, -⟩
      · rw [hother, hsession] at hold
        rw [← Option.some.inj hold, h.mapId_eq] at hmapId
        exact hid hmapId.symm
      · rw [hother, hplace, List.getElem?_eq_none (Nat.le_refl _)] at hold
        cases hold
    · rw [if_neg hother]

/-- An admission keeps the registry consistent. -/
theorem consistent (hgame : game.Consistent)
    (h : Admission game mapId name next map place session newcomer) : next.Consistent where
  mapPlaces id other := by
    rw [h.mapPlaces, h.maps]
    exact hgame.mapPlaces id other
  sessionPlaces := h.sessionPlaces_iff hgame
  mapIndex found hfound := by
    obtain ⟨other, hother⟩ := List.mem_iff_getElem?.mp hfound
    rw [h.maps]
    rcases h.session_cases hother with ⟨-, hold⟩ | ⟨-, rfl⟩
    · exact hgame.mapIndex found (List.mem_of_getElem? hold)
    · change game.maps[session.mapIndex]?.map (·.id) = some session.mapId
      rw [h.map_eq, Option.map_some, h.map_id, h.mapId_eq]
  occupied found hfound := by
    obtain ⟨other, hother⟩ := List.mem_iff_getElem?.mp hfound
    rcases h.session_cases hother with ⟨-, hold⟩ | ⟨-, rfl⟩
    · exact hgame.occupied found (List.mem_of_getElem? hold)
    · exact List.append_ne_nil_of_right_ne_nil _ (List.cons_ne_nil _ _)
  names found hfound := by
    obtain ⟨other, hother⟩ := List.mem_iff_getElem?.mp hfound
    rcases h.session_cases hother with ⟨-, hold⟩ | ⟨-, rfl⟩
    · exact hgame.names found (List.mem_of_getElem? hold)
    · have hnodup : (session.players.map (·.name)).Nodup := by
        rcases h.origin with hsession | ⟨-, hempty, -⟩
        · exact hgame.names session (List.mem_of_getElem? hsession)
        · rw [hempty]
          exact List.nodup_nil
      rw [Session.withPlayer, List.map_append, List.map_singleton, List.nodup_append]
      refine ⟨hnodup, List.nodup_singleton _, ?_⟩
      intro other hmem last hlast
      obtain ⟨player, hplayer, rfl⟩ := List.mem_map.mp hmem
      rw [List.mem_singleton.mp hlast, h.newcomer_name]
      exact h.fresh player hplayer
  ids found hfound seat player hplayer := by
    obtain ⟨other, hother⟩ := List.mem_iff_getElem?.mp hfound
    rcases h.playerAt?_cases (playerAt?_eq_some.mpr ⟨found, hother, hplayer⟩) with
      hold | ⟨-, hseat, rfl⟩
    · obtain ⟨oldSession, holdSession, holdSeat⟩ := playerAt?_eq_some.mp hold
      exact hgame.ids oldSession (List.mem_of_getElem? holdSession) seat player holdSeat
    · rw [h.newcomer_id, hseat]
  tokens other other' seat seat' player player' hplayer hplayer' htoken := by
    have hunused := findByToken?_eq_none_iff.mp h.newcomer_token
    rcases h.playerAt?_cases hplayer with hold | ⟨hother, hseat, rfl⟩ <;>
      rcases h.playerAt?_cases hplayer' with hold' | ⟨hother', hseat', rfl⟩
    · exact hgame.tokens other other' seat seat' player player' hold hold' htoken
    · exact absurd htoken (hunused other seat player hold)
    · exact absurd htoken.symm (hunused other' seat' player' hold')
    · exact ⟨hother.trans hother'.symm, hseat.trans hseat'.symm⟩

end Admission

/-- An operation admits a newcomer, or leaves the rosters as they are. -/
theorem step_cases (hgame : game.Consistent) (operation : Operation) :
    (∃ mapId name map place session newcomer, operation = .join mapId name ∧
        Admission game mapId name (game.next operation) map place session newcomer ∧
        game.join mapId name = .ok (⟨newcomer.token, newcomer.id⟩, game.next operation)) ∨
      game.SameRosters (game.next operation) := by
  rcases game.next_cases operation with ⟨mapId, name, joined, hoperation, hjoin⟩ | hsame
  · rcases join_cases hgame hjoin with ⟨hnext, -⟩ | ⟨map, place, session, newcomer, h, rfl⟩
    · rw [hnext]
      exact Or.inr (.refl game)
    · exact Or.inl ⟨mapId, name, map, place, session, newcomer, hoperation, h, hjoin⟩
  · exact Or.inr hsame

/-- A join admits a newcomer or changes nothing. -/
theorem next_join_cases (hgame : game.Consistent) (mapId : MapId) (name : String) :
    (∃ map place session newcomer,
        Admission game mapId name (game.next (.join mapId name)) map place session newcomer) ∨
      game.next (.join mapId name) = game := by
  cases hperform : game.perform (.join mapId name) with
  | error error => exact Or.inr (next_of_error hperform)
  | ok next =>
      rw [next_of_ok hperform]
      obtain ⟨joined, hjoin⟩ := perform_join_eq_ok.mp hperform
      rcases join_cases hgame hjoin with ⟨hnext, -⟩ | ⟨map, place, session, newcomer, h, -⟩
      · exact Or.inr hnext
      · exact Or.inl ⟨map, place, session, newcomer, h⟩

/-- Every operation keeps the registry consistent. -/
theorem Consistent.step (hgame : game.Consistent) (operation : Operation) :
    (game.next operation).Consistent := by
  rcases step_cases hgame operation with ⟨_, _, map, place, session, newcomer, -, h, -⟩ | hsame
  · exact h.consistent hgame
  · exact hgame.of_sameRosters hsame

/-- Every run keeps the registry consistent. -/
theorem Consistent.after (hgame : game.Consistent) (operations : List Operation) :
    (game.after operations).Consistent :=
  run_induction (p := fun _ game => game.Consistent) hgame
    (fun _ _ operation hcurrent => hcurrent.step operation) operations

theorem maps_settings_next (hgame : game.Consistent) (operation : Operation) :
    (game.next operation).maps = game.maps ∧ (game.next operation).settings = game.settings := by
  rcases step_cases hgame operation with ⟨_, _, map, place, session, newcomer, -, h, -⟩ | hsame
  · exact ⟨h.maps, h.settings⟩
  · exact ⟨hsame.maps, hsame.settings⟩

theorem maps_settings_after (hgame : game.Consistent) (operations : List Operation) :
    (game.after operations).maps = game.maps ∧
      (game.after operations).settings = game.settings := by
  apply And.right (run_induction (p := fun _ current => current.Consistent ∧
    current.maps = game.maps ∧ current.settings = game.settings) ⟨hgame, rfl, rfl⟩ _ operations)
  rintro - current operation ⟨hcurrent, hmaps, hsettings⟩
  obtain ⟨hnextMaps, hnextSettings⟩ := maps_settings_next hcurrent operation
  exact ⟨hcurrent.step operation, hnextMaps.trans hmaps, hnextSettings.trans hsettings⟩

/-- Rosters do not get shorter. -/
theorem length_le_next (hgame : game.Consistent) (operation : Operation) {place : ℕ}
    {session : Session} (hsession : game.sessions[place]? = some session) :
    ∃ later ∈ (game.next operation).sessions, session.players.length ≤ later.players.length := by
  rcases step_cases hgame operation with
    ⟨_, _, _, admitting, host, newcomer, -, h, -⟩ | hsame
  · by_cases hplace : place = admitting
    · refine ⟨host.withPlayer newcomer, List.mem_of_getElem? (by rw [h.sessions, if_pos rfl]), ?_⟩
      rcases h.origin with hhost | ⟨hend, -, -⟩
      · rw [hplace, hhost, Option.some_inj] at hsession
        rw [← hsession, Session.withPlayer, List.length_append]
        exact Nat.le_add_right _ _
      · rw [hplace, hend, List.getElem?_eq_none (Nat.le_refl _)] at hsession
        cases hsession
    · refine ⟨session, List.mem_of_getElem? (i := place) ?_, Nat.le_refl _⟩
      rw [h.sessions, if_neg hplace, hsession]
  · obtain ⟨later, hlater, hroster⟩ := hsame.symm.exists_session hsession
    exact ⟨later, List.mem_of_getElem? hlater, Nat.le_of_eq (length_eq_of_roster_eq hroster)⟩

/-- If there are ids for all players after an operation, there were before. -/
theorem small_of_next (hgame : game.Consistent) (operation : Operation)
    (hsmall : ∀ session ∈ (game.next operation).sessions, session.players.length < 2 ^ 32) :
    ∀ session ∈ game.sessions, session.players.length < 2 ^ 32 := by
  intro session hsession
  obtain ⟨place, hplace⟩ := List.mem_iff_getElem?.mp hsession
  obtain ⟨later, hlater, hlength⟩ := length_le_next hgame operation hplace
  exact Nat.lt_of_le_of_lt hlength (hsmall later hlater)

/-- Enrolling fails only for want of a token. -/
theorem enrol_error {opened : Game} {map : StreetMap} {place : ℕ} {session : Session}
    {error : GameError} (h : opened.enrol map place session name = .error error) :
    error = .tokensExhausted ∧ opened.unusedToken? = none ∧ session.playerNamed? name = none := by
  rw [enrol] at h
  cases hplayer : session.playerNamed? name with
  | some player => simp [hplayer] at h
  | none =>
      simp only [hplayer] at h
      cases htoken : opened.unusedToken? with
      | none =>
          simp only [htoken] at h
          exact ⟨(Except.error.inj h).symm, rfl, rfl⟩
      | some drawn => simp [htoken] at h

/-- A join fails for its name, for its map or for want of tokens. -/
theorem join_error (hgame : game.Consistent) {error : GameError}
    (h : game.join mapId name = .error error) :
    error = .emptyName ∧ name = "" ∨
      error = .mapNotFound mapId ∧ (∀ map ∈ game.maps, map.id ≠ mapId) ∨
        error = .tokensExhausted ∧ game.unusedToken? = none ∧
          game.playerOn? mapId name = none := by
  by_cases hempty : name.isEmpty = true
  · rw [join, if_pos hempty] at h
    exact Or.inl ⟨(Except.error.inj h).symm, String.isEmpty_iff.mp hempty⟩
  right
  have hname : name ≠ "" := by simpa using hempty
  cases hplace : game.mapPlaces.place? mapId with
  | none =>
      left
      rw [join, if_neg hempty] at h
      simp only [hplace] at h
      refine ⟨(Except.error.inj h).symm, fun map hmap hmapId => ?_⟩
      obtain ⟨mapPlace, hmap⟩ := List.mem_iff_getElem?.mp hmap
      have hfound : game.mapPlaces.place? mapId = some mapPlace := by
        rw [hgame.mapPlaces, hmap, Option.map_some, hmapId]
      rw [hplace] at hfound
      cases hfound
  | some mapPlace =>
      right
      obtain ⟨map, hmap, hmapId⟩ :=
        Option.map_eq_some_iff.mp ((hgame.mapPlaces mapId mapPlace).mp hplace)
      rcases withSession_cases hgame map mapPlace with
        ⟨place, session, hopened, hsession, hsessionMap⟩ | ⟨hnew, hopened⟩
      · rw [join_eq hname hplace hmap hopened hsession] at h
        obtain ⟨herror, hexhausted, hunknown⟩ := enrol_error h
        have hfound : game.sessionForMap? mapId = some session :=
          hgame.sessionForMap?_eq_some.mpr
            ⟨List.mem_of_getElem? hsession, hsessionMap.trans hmapId⟩
        exact ⟨herror, hexhausted, by rw [playerOn?, hfound, Option.bind_some, hunknown]⟩
      · rw [join_eq hname hplace hmap hopened List.getElem?_concat_length] at h
        obtain ⟨herror, hexhausted, -⟩ := enrol_error h
        rw [unusedToken?_open] at hexhausted
        refine ⟨herror, hexhausted, Option.eq_none_iff_forall_ne_some.mpr fun player hplayer => ?_⟩
        obtain ⟨session, hsession, -⟩ := Option.bind_eq_some_iff.mp hplayer
        obtain ⟨hmem, hsessionMap⟩ := hgame.sessionForMap?_eq_some.mp hsession
        exact hnew session hmem (hsessionMap.trans hmapId.symm)

/-- An unknown map cannot be joined. -/
theorem join_unknown_map (hgame : game.Consistent) (hname : name ≠ "")
    (hunknown : ∀ map ∈ game.maps, map.id ≠ mapId) :
    game.join mapId name = .error (.mapNotFound mapId) := by
  have hempty : ¬ name.isEmpty = true := by simpa using hname
  have hplace : game.mapPlaces.place? mapId = none := by
    refine Option.eq_none_iff_forall_ne_some.mpr fun mapPlace hplace => ?_
    obtain ⟨map, hmap, hmapId⟩ :=
      Option.map_eq_some_iff.mp ((hgame.mapPlaces mapId mapPlace).mp hplace)
    exact hunknown map (List.mem_of_getElem? hmap) hmapId
  rw [join, if_neg hempty, hplace]

end Game

end StreetDogs
