import StreetDogs.Proofs.Registry.Admission

/-!
# The registry is the history of joins

The joins that succeeded tell what the registry holds: the maps that were
joined, in the order of their first joins, and for each of them the names that
joined it, in the order of their first joins.  Commands, steps of the clock,
queries and failures leave no mark.
-/

namespace StreetDogs

/-- A join that succeeded, and its answer. -/
structure JoinRecord where
  mapId : MapId
  name : String
  answer : Joined
deriving DecidableEq, Repr

def joinRecord? : Game × Operation → Option JoinRecord
  | (game, .join mapId name) =>
    match game.join mapId name with
    | .ok (answer, _) => some ⟨mapId, name, answer⟩
    | .error _ => none
  | _ => none

def joinsOf (trace : List (Game × Operation)) : List JoinRecord := trace.filterMap joinRecord?

/-- The maps that were joined, in the order of their first joins. -/
def mapsJoined (records : List JoinRecord) : List MapId := (records.map (·.mapId)).eraseDups

/-- The names that joined a map, in the order of their first joins. -/
def namesJoined (records : List JoinRecord) (mapId : MapId) : List String :=
  ((records.filter fun record => record.mapId == mapId).map (·.name)).eraseDups

section Records

variable {records : List JoinRecord} {record : JoinRecord} {mapId : MapId} {name : String}

private theorem eraseDups_concat (names : List String) (name : String) :
    (names ++ [name]).eraseDups =
      if name ∈ names then names.eraseDups else names.eraseDups ++ [name] := by
  rw [List.eraseDups_append]
  by_cases h : name ∈ names <;> simp [List.removeAll, h, List.eraseDups_cons]

private theorem nodup_eraseDups (names : List String) : names.eraseDups.Nodup := by
  induction names using List.reverseRecOn with
  | nil => exact List.nodup_nil
  | append_singleton names name ih =>
      rw [eraseDups_concat]
      split_ifs with h
      · exact ih
      · rw [List.nodup_append]
        refine ⟨ih, List.nodup_singleton _, ?_⟩
        intro other hother last hlast heq
        apply h
        rw [List.mem_singleton.mp hlast] at heq
        rw [← heq]
        exact List.mem_eraseDups.mp hother

theorem mem_mapsJoined :
    mapId ∈ mapsJoined records ↔ ∃ record ∈ records, record.mapId = mapId := by
  rw [mapsJoined, List.mem_eraseDups, List.mem_map]

theorem mem_namesJoined :
    name ∈ namesJoined records mapId ↔
      ∃ record ∈ records, record.mapId = mapId ∧ record.name = name := by
  simp only [namesJoined, List.mem_eraseDups, List.mem_map, List.mem_filter, beq_iff_eq, and_assoc]

theorem nodup_mapsJoined (records : List JoinRecord) : (mapsJoined records).Nodup :=
  nodup_eraseDups _

theorem nodup_namesJoined (records : List JoinRecord) (mapId : MapId) :
    (namesJoined records mapId).Nodup :=
  nodup_eraseDups _

theorem mapsJoined_concat (records : List JoinRecord) (record : JoinRecord) :
    mapsJoined (records ++ [record]) =
      if record.mapId ∈ mapsJoined records then mapsJoined records
      else mapsJoined records ++ [record.mapId] := by
  rw [mapsJoined, List.map_append, List.map_singleton, eraseDups_concat, mapsJoined]
  simp only [List.mem_eraseDups]

/-- A join adds its name to the names on its map, unless it is there. -/
theorem namesJoined_concat (records : List JoinRecord) (record : JoinRecord) :
    namesJoined (records ++ [record]) record.mapId =
      if record.name ∈ namesJoined records record.mapId then namesJoined records record.mapId
      else namesJoined records record.mapId ++ [record.name] := by
  have hfilter : [record].filter (fun other => other.mapId == record.mapId) = [record] := by simp
  rw [namesJoined, List.filter_append, hfilter, List.map_append, List.map_singleton,
    eraseDups_concat, namesJoined]
  simp only [List.mem_eraseDups]

/-- A join leaves the names on other maps as they are. -/
theorem namesJoined_concat_of_ne (records : List JoinRecord) (h : record.mapId ≠ mapId) :
    namesJoined (records ++ [record]) mapId = namesJoined records mapId := by
  have hfilter : [record].filter (fun other => other.mapId == mapId) = [] := by simp [h]
  rw [namesJoined, List.filter_append, hfilter, List.append_nil, namesJoined]

theorem namesJoined_eq_nil (h : mapId ∉ mapsJoined records) : namesJoined records mapId = [] := by
  rw [List.eq_nil_iff_forall_not_mem]
  intro name hname
  obtain ⟨record, hrecord, hmapId, -⟩ := mem_namesJoined.mp hname
  exact h (mem_mapsJoined.mpr ⟨record, hrecord, hmapId⟩)

end Records

namespace Game

variable {game next : Game} {records : List JoinRecord}

/-- The sessions, their names and the answers given are those of the joins. -/
structure Follows (records : List JoinRecord) (game : Game) : Prop where
  sessions : game.sessions.map (·.mapId) = mapsJoined records
  names : ∀ session ∈ game.sessions,
    session.players.map (·.name) = namesJoined records session.mapId
  answers : ∀ record ∈ records, ∃ place seat session player,
    game.sessions[place]? = some session ∧ session.mapId = record.mapId ∧
      game.playerAt? place seat = some player ∧ player.name = record.name ∧
        record.answer = ⟨player.token, player.id⟩

/-- What keeps the rosters keeps the answers good. -/
private theorem Follows.of_sameRosters (h : Follows records game) (hsame : game.SameRosters next) :
    Follows records next where
  sessions := by
    have hids := congrArg (List.map (·.1)) hsame.rosters
    rw [List.map_map, List.map_map] at hids
    exact hids.trans h.sessions
  names session hsession := by
    obtain ⟨old, hold, hroster⟩ := hsame.exists_mem hsession
    have hmapId : session.mapId = old.mapId := congrArg (·.1) hroster
    rw [names_eq_of_roster_eq hroster, hmapId]
    exact h.names old hold
  answers record hrecord := by
    obtain ⟨place, seat, session, player, hsession, hmapId, hplayer, hname, hanswer⟩ :=
      h.answers record hrecord
    obtain ⟨session', hsession', hroster⟩ := hsame.symm.exists_session hsession
    obtain ⟨player', hplayer', hentry⟩ := hsame.symm.exists_player hplayer
    have hmapId' : session.mapId = session'.mapId := congrArg (·.1) hroster
    have hid : player.id = player'.id := congrArg (·.1) hentry
    have hname' : player.name = player'.name := congrArg (·.2.1) hentry
    have htoken : player.token = player'.token := congrArg (·.2.2) hentry
    rw [hid, htoken] at hanswer
    exact ⟨place, seat, session', player', hsession', hmapId'.symm.trans hmapId, hplayer',
      hname'.symm.trans hname, hanswer⟩

/-- A join under a known name adds nothing. -/
private theorem Follows.rejoin (h : Follows records game) {mapId : MapId} {name : String}
    {place : ℕ} {session : Session} {player : Player}
    (hsession : game.sessions[place]? = some session) (hmapId : session.mapId = mapId)
    (hplayer : player ∈ session.players) (hname : player.name = name) :
    Follows (records ++ [⟨mapId, name, ⟨player.token, player.id⟩⟩]) game := by
  have hmem := List.mem_of_getElem? hsession
  have hjoined : mapId ∈ mapsJoined records := by
    rw [← h.sessions, ← hmapId]
    exact List.mem_map_of_mem hmem
  have hknown : name ∈ namesJoined records mapId := by
    rw [← hmapId, ← h.names session hmem, ← hname]
    exact List.mem_map_of_mem hplayer
  refine ⟨?_, ?_, ?_⟩
  · rw [mapsJoined_concat, if_pos hjoined]
    exact h.sessions
  · intro other hother
    rw [h.names other hother]
    by_cases hsame : mapId = other.mapId
    · rw [← hsame]
      exact (if_pos hknown ▸ namesJoined_concat records ⟨mapId, name, _⟩).symm
    · exact (namesJoined_concat_of_ne records hsame).symm
  · intro record hrecord
    rcases List.mem_append.mp hrecord with hold | hnew
    · exact h.answers record hold
    · obtain ⟨seat, hseat⟩ := List.mem_iff_getElem?.mp hplayer
      rw [List.mem_singleton.mp hnew]
      exact ⟨place, seat, session, player, hsession, hmapId,
        playerAt?_eq_some.mpr ⟨session, hsession, hseat⟩, hname, rfl⟩

section Admission

variable {mapId : MapId} {name : String} {map : StreetMap} {place : ℕ} {session : Session}
  {newcomer : Player}

/-- The maps of the sessions after an admission. -/
private theorem mapIds_admission (h : Admission game mapId name next map place session newcomer) :
    next.sessions.map (·.mapId) =
      if mapId ∈ game.sessions.map (·.mapId) then game.sessions.map (·.mapId)
      else game.sessions.map (·.mapId) ++ [mapId] := by
  have hadmitted : (session.withPlayer newcomer).mapId = mapId := h.mapId_eq
  apply List.ext_getElem?
  intro other
  rw [List.getElem?_map, h.sessions]
  rcases h.origin with hsession | ⟨hplace, -, hnew⟩
  · have hmem : mapId ∈ game.sessions.map (·.mapId) := by
      rw [← h.mapId_eq]
      exact List.mem_map_of_mem (List.mem_of_getElem? hsession)
    rw [if_pos hmem, List.getElem?_map]
    split_ifs with hother
    · rw [hother, hsession, Option.map_some, Option.map_some, hadmitted, h.mapId_eq]
    · rfl
  · have hmem : mapId ∉ game.sessions.map (·.mapId) := by
      intro hmem
      obtain ⟨found, hfound, hmapId⟩ := List.mem_map.mp hmem
      exact hnew found hfound hmapId
    have hlength : place = (game.sessions.map (·.mapId)).length := by rw [List.length_map, hplace]
    rw [if_neg hmem]
    split_ifs with hother
    · rw [hother, hlength, List.getElem?_concat_length, Option.map_some, hadmitted]
    · rw [List.getElem?_append, List.getElem?_map]
      split_ifs with hlt
      · rfl
      · rw [List.getElem?_eq_none (by simp at hlt; omega),
          List.getElem?_eq_none (by simp; omega), Option.map_none]

/-- The names of the session that admits are those of the joins so far. -/
private theorem names_of_origin (hfollows : Follows records game)
    (h : Admission game mapId name next map place session newcomer) :
    session.players.map (·.name) = namesJoined records mapId := by
  rcases h.origin with hsession | ⟨-, hempty, hnew⟩
  · rw [hfollows.names session (List.mem_of_getElem? hsession), h.mapId_eq]
  · rw [hempty, namesJoined_eq_nil, List.map_nil]
    rw [← hfollows.sessions]
    intro hmem
    obtain ⟨found, hfound, hmapId⟩ := List.mem_map.mp hmem
    exact hnew found hfound hmapId

/-- A newcomer adds a name, and a map if it is the first to join it. -/
private theorem Follows.admission (hgame : game.Consistent) (hfollows : Follows records game)
    (h : Admission game mapId name next map place session newcomer) :
    Follows (records ++ [⟨mapId, name, ⟨newcomer.token, newcomer.id⟩⟩]) next := by
  have hnames := names_of_origin hfollows h
  have hunknown : name ∉ namesJoined records mapId := by
    rw [← hnames]
    intro hmem
    obtain ⟨player, hplayer, hname⟩ := List.mem_map.mp hmem
    exact h.fresh player hplayer hname
  have hadmitted : next.sessions[place]? = some (session.withPlayer newcomer) := by
    rw [h.sessions, if_pos rfl]
  refine ⟨?_, ?_, ?_⟩
  · rw [mapIds_admission h, mapsJoined_concat, hfollows.sessions]
  · intro found hfound
    obtain ⟨other, hother⟩ := List.mem_iff_getElem?.mp hfound
    rcases h.session_cases hother with ⟨hne, hold⟩ | ⟨-, rfl⟩
    · rw [hfollows.names found (List.mem_of_getElem? hold)]
      exact (namesJoined_concat_of_ne records (h.mapId_ne hgame hne hold).symm).symm
    · have hconcat := namesJoined_concat records
        ⟨mapId, name, ⟨newcomer.token, newcomer.id⟩⟩
      rw [if_neg hunknown] at hconcat
      change (session.players ++ [newcomer]).map (·.name) = namesJoined _ session.mapId
      rw [h.mapId_eq, hconcat, List.map_append, hnames, List.map_singleton, h.newcomer_name]
  · intro record hrecord
    rcases List.mem_append.mp hrecord with hold | hnew
    · obtain ⟨other, seat, found, player, hfound, hmapId, hplayer, hname, hanswer⟩ :=
        hfollows.answers record hold
      have hplayer' : next.playerAt? other seat = some player := by
        rw [h.playerAt?_eq, if_neg, hplayer]
        rintro ⟨rfl, rfl⟩
        rw [h.playerAt?_eq_none] at hplayer
        cases hplayer
      obtain ⟨found', hfound', hmapId'⟩ := h.exists_session hfound
      exact ⟨other, seat, found', player, hfound', hmapId'.trans hmapId, hplayer', hname, hanswer⟩
    · rw [List.mem_singleton.mp hnew]
      refine ⟨place, session.players.length, session.withPlayer newcomer, newcomer, hadmitted,
        h.mapId_eq, ?_, h.newcomer_name, rfl⟩
      rw [h.playerAt?_eq, if_pos ⟨rfl, rfl⟩]

end Admission

/-- A join that succeeds leaves the mark of its record. -/
private theorem Follows.join (hgame : game.Consistent) (h : Follows records game) {mapId : MapId}
    {name : String} {joined : Joined} (hjoin : game.join mapId name = .ok (joined, next)) :
    Follows (records ++ [⟨mapId, name, joined⟩]) next := by
  rcases join_cases hgame hjoin with
    ⟨rfl, place, session, player, hsession, hmapId, hplayer, hname, rfl⟩ |
      ⟨map, place, session, newcomer, hadmission, rfl⟩
  · exact h.rejoin hsession hmapId hplayer hname
  · exact h.admission hgame hadmission

/-- Every operation leaves the mark of its record, if it has one. -/
theorem Follows.step (hgame : game.Consistent) (h : Follows records game) (operation : Operation) :
    Follows (records ++ (joinRecord? (game, operation)).toList) (game.next operation) := by
  have hother (hnone : joinRecord? (game, operation) = none)
      (hnojoin : ∀ mapId name, operation ≠ .join mapId name) :
      Follows (records ++ (joinRecord? (game, operation)).toList) (game.next operation) := by
    rcases game.next_cases operation with ⟨mapId, name, _, hoperation, -⟩ | hsame
    · exact absurd hoperation (hnojoin mapId name)
    · rw [hnone, Option.toList_none, List.append_nil]
      exact h.of_sameRosters hsame
  cases operation with
  | join mapId name =>
      cases hjoin : game.join mapId name with
      | ok answer =>
          obtain ⟨joined, next⟩ := answer
          have hperform : game.perform (.join mapId name) = .ok next :=
            perform_join_eq_ok.mpr ⟨joined, hjoin⟩
          rw [next_of_ok hperform, joinRecord?, hjoin]
          exact h.join hgame hjoin
      | error error =>
          have hperform : game.perform (.join mapId name) = .error error := by
            rw [perform, hjoin]
            rfl
          rw [next_of_error hperform, joinRecord?, hjoin]
          exact (List.append_nil records).symm ▸ h
  | setHeading token heading => exact hother rfl (fun _ _ h => by cases h)
  | advance time => exact hother rfl (fun _ _ h => by cases h)
  | sessionOf token => exact hother rfl (fun _ _ h => by cases h)
  | listPlayers token => exact hother rfl (fun _ _ h => by cases h)
  | state token => exact hother rfl (fun _ _ h => by cases h)

/-- After every run of a new game the registry follows the joins of the run. -/
theorem follows_after (hgame : game.Consistent) (hempty : game.sessions = [])
    (operations : List Operation) :
    Follows (joinsOf (game.trace operations)) (game.after operations) := by
  have hstart : Follows (joinsOf []) game := by
    refine ⟨?_, ?_, nofun⟩
    · rw [hempty]
      rfl
    · rw [hempty]
      exact nofun
  apply And.right (run_induction (p := fun trace current => current.Consistent ∧
    Follows (joinsOf trace) current) ⟨hgame, hstart⟩ _ operations)
  rintro trace current operation ⟨hcurrent, hfollows⟩
  refine ⟨hcurrent.step operation, ?_⟩
  have hstep := hfollows.step hcurrent operation
  have hrecords : joinsOf (trace ++ [(current, operation)]) =
      joinsOf trace ++ (joinRecord? (current, operation)).toList := by
    rw [joinsOf, List.filterMap_append, joinsOf]
    cases hrecord : joinRecord? (current, operation) with
    | none => rw [List.filterMap_cons_none hrecord, Option.toList_none, List.filterMap_nil]
    | some record => rw [List.filterMap_cons_some hrecord, Option.toList_some, List.filterMap_nil]
  rwa [hrecords]

/-! ## The refinement -/

/-- The registry answers as the history of joins tells. -/
structure Refines (records : List JoinRecord) (game : Game) : Prop where
  /-- The sessions stand in the order of first joins, one for a map. -/
  sessions : game.sessions.map (·.mapId) = mapsJoined records ∧ (mapsJoined records).Nodup
  /-- A map has a session exactly when a join to it succeeded. -/
  session_iff : ∀ mapId, (∃ session, game.sessionForMap? mapId = some session) ↔
    ∃ record ∈ records, record.mapId = mapId
  /-- The roster of a map lists the distinct names that joined it, in the order
  of their first joins, and the ids count its places. -/
  roster : ∀ mapId session, game.sessionForMap? mapId = some session →
    session.mapId = mapId ∧ session.players.map (·.name) = namesJoined records mapId ∧
      session.players.map (·.id.toNat) = List.range session.players.length
  /-- A join answers with the place of its name. -/
  answers : ∀ record ∈ records, record.name ∈ namesJoined records record.mapId ∧
    record.answer.player.toNat = (namesJoined records record.mapId).idxOf record.name
  /-- The token of an answer leads to the roster of the map joined. -/
  queries : ∀ record ∈ records, ∃ session, game.sessionForMap? record.mapId = some session ∧
    game.listPlayers record.answer.token = .ok session.players ∧
      game.state record.answer.token =
        .ok (session.players.map fun player => (player.id, player.dog.snapshot))
  playerCount : game.playerCount =
    ((mapsJoined records).map fun mapId => (namesJoined records mapId).length).sum

/-- A registry that follows the joins refines them, as long as there are ids
for all players. -/
theorem Follows.refines (hgame : game.Consistent) (h : Follows records game)
    (hsmall : ∀ session ∈ game.sessions, session.players.length < 2 ^ 32) :
    Refines records game where
  sessions := ⟨h.sessions, nodup_mapsJoined records⟩
  session_iff mapId := by
    rw [← mem_mapsJoined, ← h.sessions, List.mem_map]
    exact exists_congr fun session => hgame.sessionForMap?_eq_some
  roster mapId session hfound := by
    obtain ⟨hsession, rfl⟩ := hgame.sessionForMap?_eq_some.mp hfound
    refine ⟨rfl, h.names session hsession, ?_⟩
    apply List.ext_getElem?
    intro seat
    rw [List.getElem?_map]
    cases hplayer : session.players[seat]? with
    | none =>
        rw [Option.map_none, List.getElem?_eq_none]
        rw [List.length_range]
        exact List.getElem?_eq_none_iff.mp hplayer
    | some player =>
        obtain ⟨hlt, -⟩ := List.getElem?_eq_some_iff.mp hplayer
        rw [Option.map_some, hgame.toNat_id hsession (hsmall session hsession) hplayer,
          List.getElem?_range hlt]
  answers record hrecord := by
    obtain ⟨place, seat, session, player, hsession, hmapId, hplayer, hname, hanswer⟩ :=
      h.answers record hrecord
    obtain ⟨_, hsession', hseat⟩ := playerAt?_eq_some.mp hplayer
    obtain rfl := Option.some.inj (hsession.symm.trans hsession')
    have hmem := List.mem_of_getElem? hsession
    have hnames := h.names session hmem
    rw [hmapId] at hnames
    have hat : (namesJoined records record.mapId)[seat]? = some record.name := by
      rw [← hnames, List.getElem?_map, hseat, Option.map_some, hname]
    obtain ⟨hlt, hget⟩ := List.getElem?_eq_some_iff.mp hat
    refine ⟨List.mem_of_getElem? hat, ?_⟩
    rw [hanswer, hgame.toNat_id hmem (hsmall session hmem) hseat, ← hget,
      (nodup_namesJoined records record.mapId).idxOf_getElem]
  queries record hrecord := by
    obtain ⟨place, seat, session, player, hsession, hmapId, hplayer, -, hanswer⟩ :=
      h.answers record hrecord
    have hsessionOf : game.sessionOf record.answer.token = .ok session := by
      rw [hanswer, sessionOf, hgame.findByToken?_eq_some hplayer]
      simp only [hsession]
    have hlist : game.listPlayers record.answer.token = .ok session.players := by
      rw [listPlayers, hsessionOf]
      rfl
    refine ⟨session,
      hgame.sessionForMap?_eq_some.mpr ⟨List.mem_of_getElem? hsession, hmapId⟩, hlist, ?_⟩
    rw [state, hlist]
    rfl
  playerCount := by
    rw [playerCount, ← List.sum_eq_foldl, ← h.sessions, List.map_map]
    congr 1
    apply List.map_congr_left
    intro session hsession
    rw [Function.comp_apply, ← h.names session hsession, List.length_map, Session.playerCount]

/-- After every run of a new game the registry is what the joins of the run
make it. -/
theorem refines_after {maps : List StreetMap} {settings : GameSettings} {entropy : Supply UInt64}
    {tokens : Supply Token} (hnew : Game.new maps settings entropy tokens = .ok game)
    (operations : List Operation)
    (hsmall : ∀ session ∈ (game.after operations).sessions, session.players.length < 2 ^ 32) :
    Refines (joinsOf (game.trace operations)) (game.after operations) := by
  have hgame := consistent_new hnew
  have hfollows := follows_after hgame (sessions_new hnew) operations
  exact hfollows.refines (hgame.after operations) hsmall

/-- A short run leaves the mark of its three joins that succeeded. -/
theorem refines_after_shortRun :
    Refines (joinsOf (onThreeRoads.trace shortRun)) (onThreeRoads.after shortRun) := by
  have hsmall : ∀ session ∈ (onThreeRoads.after shortRun).sessions,
      session.players.length < 2 ^ 32 := by decide +kernel
  exact refines_after new_onThreeRoads shortRun hsmall

end Game

end StreetDogs
