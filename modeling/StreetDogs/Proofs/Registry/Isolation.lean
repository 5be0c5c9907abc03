import StreetDogs.Proofs.Registry.Rejoin

/-!
# Players do not influence each other

A run can be cut down to one player: the joins of that player, the commands
under the token of that player and the steps of the clock.  With dogs placed at
the start of the first road, the dog of the player ends in the same state as in
the whole run, although places, ids and tokens differ between the two.
-/

namespace StreetDogs.Game

variable {game next solo start : Game} {mapId : MapId} {name : String} {own : Token}

/-- What stays of an operation when only one player is left, whose commands are
given under the token `own`: the player's joins, the commands under the token
that the player has in the game the operation met, and steps of the clock. -/
def soloOperation? (mapId : MapId) (name : String) (own : Token) :
    Game × Operation → Option Operation
  | (_, .join otherMap other) =>
    if otherMap = mapId ∧ other = name then some (.join mapId name) else none
  | (game, .setHeading token heading) =>
    if (game.playerOn? mapId name).any (·.token == token) then some (.setHeading own heading)
    else none
  | (_, .advance time) => some (.advance time)
  | _ => none

def soloRun (mapId : MapId) (name : String) (own : Token) (trace : List (Game × Operation)) :
    List Operation :=
  trace.filterMap (soloOperation? mapId name own)

theorem after_soloRun_snoc (start : Game) (trace : List (Game × Operation))
    (entry : Game × Operation) :
    start.after (soloRun mapId name own (trace ++ [entry])) =
      (start.after (soloRun mapId name own trace)).after
        (soloOperation? mapId name own entry).toList := by
  rw [soloRun, List.filterMap_append, after_append, ← soloRun]
  cases hentry : soloOperation? mapId name own entry with
  | none => rw [List.filterMap_cons_none hentry]; rfl
  | some operation => rw [List.filterMap_cons_some hentry]; rfl

/-- Without players the next token is unused. -/
private theorem unusedToken?_of_no_sessions (h : game.sessions = []) :
    game.unusedToken? = some game.tokens.next := by
  have hfree (token : Token) : game.findByToken? token = none := by rw [findByToken?, h]; rfl
  have hcount : Token.count = (Token.count - 1) + 1 := by decide
  rw [unusedToken?, hcount, Supply.search]
  simp only [hfree, Option.isNone_none, if_true]

/-- What is found among the tokens offered depends on the rosters. -/
private theorem unusedToken?_of_sameRosters (h : game.SameRosters next) :
    next.unusedToken? = game.unusedToken? := by
  have hfree (token : Token) :
      (next.findByToken? token).isNone = (game.findByToken? token).isNone := by
    rw [Bool.eq_iff_iff, Option.isNone_iff_eq_none, Option.isNone_iff_eq_none,
      findByToken?_eq_none_iff, findByToken?_eq_none_iff]
    constructor
    · intro hnone place seat player hplayer
      obtain ⟨other, hother, hentry⟩ := h.symm.exists_player hplayer
      have htoken : player.token = other.token := congrArg (·.2.2) hentry
      rw [htoken]
      exact hnone place seat other hother
    · intro hnone place seat player hplayer
      obtain ⟨other, hother, hentry⟩ := h.exists_player hplayer
      have htoken : player.token = other.token := congrArg (·.2.2) hentry
      rw [htoken]
      exact hnone place seat other hother
  rw [unusedToken?, unusedToken?, h.tokens]
  simp only [hfree]

/-- The player is absent and no token is left for it. -/
def Barred (mapId : MapId) (name : String) (game : Game) : Prop :=
  game.unusedToken? = none ∧ game.playerOn? mapId name = none

/-- A supply that has nothing left to offer stays like that. -/
private theorem Barred.step (hgame : game.Consistent) (h : Barred mapId name game)
    (operation : Operation) : Barred mapId name (game.next operation) := by
  obtain ⟨hexhausted, habsent⟩ := h
  rcases step_cases hgame operation with ⟨_, _, _, _, _, newcomer, -, hadmission, -⟩ | hsame
  · have hdrawn := hadmission.drawn
    rw [hexhausted] at hdrawn
    cases hdrawn
  · refine ⟨(unusedToken?_of_sameRosters hsame).trans hexhausted,
      Option.eq_none_iff_forall_ne_some.mpr fun player hplayer => ?_⟩
    obtain ⟨old, hold, -⟩ := hsame.exists_playerOn? hgame hplayer
    rw [habsent] at hold
    cases hold

/-! ## Two runs side by side -/

/-- The second game holds nobody but the player, whose dog is in the state it
has in the first game and whose token is `own`. -/
structure Mirrors (mapId : MapId) (name : String) (own : Token) (game solo : Game) : Prop where
  maps : solo.maps = game.maps
  settings : solo.settings = game.settings
  alone : ∀ session ∈ solo.sessions, session.mapId = mapId ∧
    ∀ player ∈ session.players, player.name = name
  dog : (solo.playerOn? mapId name).map (·.dog) = (game.playerOn? mapId name).map (·.dog)
  token : ∀ player, solo.playerOn? mapId name = some player → player.token = own
  /-- Until the player joins, its token is the next of the supply. -/
  offered : solo.playerOn? mapId name = none → solo.tokens.next.1 = own

/-- The maps found are the same in games with the same maps. -/
private theorem findMap?_of_maps_eq (hgame : game.Consistent) (hsolo : solo.Consistent)
    (hmaps : solo.maps = game.maps) (mapId : MapId) :
    solo.findMap? mapId = game.findMap? mapId := by
  have hplace : solo.mapPlaces.place? mapId = game.mapPlaces.place? mapId := by
    ext place
    rw [hsolo.mapPlaces, hgame.mapPlaces, hmaps]
  rw [findMap?, findMap?, hplace, hmaps]

/-- A join leaves a game as it is when the player is there. -/
private theorem next_join_of_known (hgame : game.Consistent) {player : Player}
    (hplayer : game.playerOn? mapId name = some player) :
    game.next (.join mapId name) = game := by
  by_cases hname : name = ""
  · rw [hname]
    exact next_of_error (congrArg (·.map (·.2)) (join_empty game mapId))
  · apply next_of_ok
    rw [perform, join_of_known hgame hname hplayer]
    rfl

namespace Mirrors

/-- Before anybody has joined, a game mirrors itself. -/
private theorem of_no_sessions (hgame : game.Consistent) (hempty : game.sessions = []) :
    Mirrors mapId name game.tokens.next.1 game game where
  maps := rfl
  settings := rfl
  alone session hsession := by
    rw [hempty] at hsession
    cases hsession
  dog := rfl
  token player hplayer := by
    obtain ⟨place, seat, -, hat, -⟩ := hgame.playerOn?_eq_some.mp hplayer
    rw [playerAt?, hempty] at hat
    cases hat
  offered _ := rfl

/-- Nobody sits in the second game before the player joins. -/
private theorem sessions_eq_nil (hsolo : solo.Consistent) (h : Mirrors mapId name own game solo)
    (habsent : solo.playerOn? mapId name = none) : solo.sessions = [] := by
  rw [List.eq_nil_iff_forall_not_mem]
  intro session hsession
  obtain ⟨hmapId, hnames⟩ := h.alone session hsession
  obtain ⟨player, hplayer⟩ := List.exists_mem_of_ne_nil _ (hsolo.occupied session hsession)
  have hfound := hsolo.playerOn?_of_mem hsession hplayer
  rw [hmapId, hnames player hplayer, habsent] at hfound
  cases hfound

/-- There are ids for all players of the second game. -/
private theorem small (hsolo : solo.Consistent) (h : Mirrors mapId name own game solo)
    (session : Session) (hsession : session ∈ solo.sessions) : session.players.length < 2 ^ 32 := by
  have hnames : ∀ found ∈ session.players.map (·.name), found = name := by
    intro found hfound
    obtain ⟨player, hplayer, rfl⟩ := List.mem_map.mp hfound
    exact (h.alone session hsession).2 player hplayer
  have hlength : (session.players.map (·.name)).length ≤ 1 := by
    rw [List.eq_replicate_of_mem hnames]
    have hnodup := hsolo.names session hsession
    rw [List.eq_replicate_of_mem hnames, List.nodup_replicate] at hnodup
    rwa [List.length_replicate]
  rw [List.length_map] at hlength
  omega

/-- The second game follows a change of the first that keeps the rosters. -/
private theorem of_sameRosters {next' : Game} (hsolo : solo.Consistent)
    (h : Mirrors mapId name own game solo) (hsame : game.SameRosters next)
    (hsame' : solo.SameRosters next')
    (hdog : (next'.playerOn? mapId name).map (·.dog) = (next.playerOn? mapId name).map (·.dog)) :
    Mirrors mapId name own next next' where
  maps := by rw [hsame'.maps, h.maps, hsame.maps]
  settings := by rw [hsame'.settings, h.settings, hsame.settings]
  alone session hsession := by
    obtain ⟨old, hold, hroster⟩ := hsame'.exists_mem hsession
    obtain ⟨hmapId, hnames⟩ := h.alone old hold
    refine ⟨(congrArg (·.1) hroster).trans hmapId, fun player hplayer => ?_⟩
    have hmem := List.mem_map_of_mem (f := (·.name)) hplayer
    rw [names_eq_of_roster_eq hroster] at hmem
    obtain ⟨other, hother, hname⟩ := List.mem_map.mp hmem
    exact hname.symm.trans (hnames other hother)
  dog := hdog
  token player hplayer := by
    obtain ⟨old, hold, hentry⟩ := hsame'.exists_playerOn? hsolo hplayer
    have htoken : player.token = old.token := congrArg (·.2.2) hentry
    rw [htoken]
    exact h.token old hold
  offered habsent := by
    rw [hsame'.tokens]
    apply h.offered
    refine Option.eq_none_iff_forall_ne_some.mpr fun player hplayer => ?_
    obtain ⟨other, hother, -⟩ :=
      hsame'.symm.exists_playerOn? (hsolo.of_sameRosters hsame') hplayer
    rw [habsent] at hother
    cases hother

/-- Both games admit the player. -/
private theorem admission {next' : Game} (hgame : game.Consistent) (hsolo : solo.Consistent)
    (h : Mirrors mapId name own game solo) (hrandom : game.settings.randomizeSpawn = false)
    (habsent : solo.playerOn? mapId name = none) {map map' : StreetMap} {place place' : ℕ}
    {session session' : Session} {newcomer newcomer' : Player}
    (hfirst : Admission game mapId name next map place session newcomer)
    (hsecond : Admission solo mapId name next' map' place' session' newcomer') :
    Mirrors mapId name own next next' where
  maps := by rw [hsecond.maps, h.maps, hfirst.maps]
  settings := by rw [hsecond.settings, h.settings, hfirst.settings]
  alone found hfound := by
    obtain ⟨other, hother⟩ := List.mem_iff_getElem?.mp hfound
    have hnone := h.sessions_eq_nil hsolo habsent
    rcases hsecond.session_cases hother with ⟨-, hold⟩ | ⟨-, rfl⟩
    · rw [hnone] at hold
      cases hold
    · refine ⟨hsecond.mapId_eq, fun player hplayer => ?_⟩
      rcases List.mem_append.mp hplayer with hold | hnew
      · obtain ⟨seat, hseat⟩ := List.mem_iff_getElem?.mp hold
        rw [hsecond.playerAt?_of_session, playerAt?, hnone] at hseat
        cases hseat
      · rw [List.mem_singleton.mp hnew, hsecond.newcomer_name]
  dog := by
    have hmap : map' = map := by
      have hfound := hfirst.findMap?_eq hgame
      rw [← findMap?_of_maps_eq hgame hsolo h.maps, hsecond.findMap?_eq hsolo] at hfound
      exact Option.some.inj hfound
    rw [hfirst.playerOn?_eq hgame, hsecond.playerOn?_eq hsolo, if_pos ⟨rfl, rfl⟩,
      if_pos ⟨rfl, rfl⟩, Option.map_some, Option.map_some, hfirst.newcomer_dog,
      hsecond.newcomer_dog, h.settings, hrandom, hmap]
    rfl
  token player hplayer := by
    rw [hsecond.playerOn?_eq hsolo, if_pos ⟨rfl, rfl⟩, Option.some_inj] at hplayer
    have hdrawn := hsecond.drawn
    rw [unusedToken?_of_no_sessions (h.sessions_eq_nil hsolo habsent), Option.some_inj] at hdrawn
    rw [← hplayer, ← h.offered habsent, hdrawn]
  offered hnone := by
    rw [hsecond.playerOn?_eq hsolo, if_pos ⟨rfl, rfl⟩] at hnone
    cases hnone

/-- The player joins both games, unless the first is barred to it. -/
private theorem join (hgame : game.Consistent) (hsolo : solo.Consistent)
    (h : Mirrors mapId name own game solo) (hrandom : game.settings.randomizeSpawn = false) :
    Mirrors mapId name own (game.next (.join mapId name)) (solo.next (.join mapId name)) ∨
      Barred mapId name (game.next (.join mapId name)) := by
  have hdog := h.dog
  cases hplayer : game.playerOn? mapId name with
  | some player =>
      rw [hplayer, Option.map_some] at hdog
      obtain ⟨player', hplayer', -⟩ := Option.map_eq_some_iff.mp hdog
      rw [next_join_of_known hgame hplayer, next_join_of_known hsolo hplayer']
      exact Or.inl h
  | none =>
      rw [hplayer, Option.map_none, Option.map_eq_none_iff] at hdog
      -- Each game seats the player or has a reason not to.  The reasons agree,
      -- except that only the supply of the first can have run dry.
      rcases next_join_of_absent hgame hplayer with
        ⟨map, place, session, newcomer, hfirst⟩ | ⟨hnext, hreason⟩ <;>
        rcases next_join_of_absent hsolo hdog with
          ⟨map', place', session', newcomer', hsecond⟩ | ⟨hnext', hreason'⟩
      · exact Or.inl (h.admission hgame hsolo hrandom hdog hfirst hsecond)
      · rcases hreason' with hempty | hunknown | hexhausted
        · exact absurd hempty hfirst.name_ne
        · rw [h.maps] at hunknown
          exact absurd hfirst.map_id (hunknown map (List.mem_of_getElem? hfirst.map_eq))
        · rw [unusedToken?_of_no_sessions (h.sessions_eq_nil hsolo hdog)] at hexhausted
          cases hexhausted
      · rw [hnext]
        rcases hreason with hempty | hunknown | hexhausted
        · exact absurd hempty hsecond.name_ne
        · rw [← h.maps] at hunknown
          exact absurd hsecond.map_id (hunknown map' (List.mem_of_getElem? hsecond.map_eq))
        · exact Or.inr ⟨hexhausted, hplayer⟩
      · rw [hnext, hnext']
        exact Or.inl h

/-- The player is commanded under its token in each game. -/
private theorem setHeading (hgame : game.Consistent) (hsolo : solo.Consistent)
    (hsmall : ∀ session ∈ game.sessions, session.players.length < 2 ^ 32)
    (h : Mirrors mapId name own game solo) {token : Token} {heading : Heading} {player : Player}
    (hplayer : game.playerOn? mapId name = some player) (htoken : player.token = token) :
    Mirrors mapId name own (game.next (.setHeading token heading))
      (solo.next (.setHeading own heading)) := by
  apply h.of_sameRosters hsolo (sameRosters_next_setHeading game token heading)
    (sameRosters_next_setHeading solo own heading)
  have hdog := h.dog
  rw [hplayer, Option.map_some] at hdog
  obtain ⟨player', hplayer', hsame⟩ := Option.map_eq_some_iff.mp hdog
  rw [playerOn?_next_setHeading hgame hsmall, playerOn?_next_setHeading hsolo (h.small hsolo),
    findMap?_of_maps_eq hgame hsolo h.maps, hplayer, hplayer', h.settings]
  simp only [Option.map_some, if_pos htoken, if_pos (h.token player' hplayer')]
  cases game.findMap? mapId with
  | none => exact congrArg some hsame
  | some map => simp only [hsame]

/-- A command under another token passes the player by. -/
private theorem setHeading_other (hgame : game.Consistent) (hsolo : solo.Consistent)
    (hsmall : ∀ session ∈ game.sessions, session.players.length < 2 ^ 32)
    (h : Mirrors mapId name own game solo) {token : Token} {heading : Heading}
    (hother : ∀ player, game.playerOn? mapId name = some player → player.token ≠ token) :
    Mirrors mapId name own (game.next (.setHeading token heading)) solo := by
  apply h.of_sameRosters hsolo (sameRosters_next_setHeading game token heading) (.refl solo)
  rw [playerOn?_next_setHeading hgame hsmall, h.dog]
  cases hplayer : game.playerOn? mapId name with
  | none => rfl
  | some player => rw [Option.map_some, Option.map_some, if_neg (hother player hplayer)]; rfl

/-- The clock moves the dog of the player in both games alike. -/
private theorem advance (hgame : game.Consistent) (hsolo : solo.Consistent)
    (h : Mirrors mapId name own game solo) (time : Duration) :
    Mirrors mapId name own (game.next (.advance time)) (solo.next (.advance time)) := by
  apply h.of_sameRosters hsolo (sameRosters_next_advance game time)
    (sameRosters_next_advance solo time)
  have hdog := h.dog
  rw [playerOn?_next_advance hgame, playerOn?_next_advance hsolo,
    findMap?_of_maps_eq hgame hsolo h.maps]
  cases hplayer : game.playerOn? mapId name with
  | none =>
      rw [hplayer, Option.map_none, Option.map_eq_none_iff] at hdog
      rw [hdog, Option.map_none]
  | some player =>
      rw [hplayer, Option.map_some] at hdog
      obtain ⟨player', hplayer', hsame⟩ := Option.map_eq_some_iff.mp hdog
      rw [hplayer']
      cases game.findMap? mapId with
      | none => exact congrArg some hsame
      | some map => simp only [Option.map_some, Session.movePlayer_eq, hsame]

/-- Every operation is followed by what stays of it. -/
theorem step (hgame : game.Consistent) (hsolo : solo.Consistent)
    (hsmall : ∀ session ∈ game.sessions, session.players.length < 2 ^ 32)
    (hrandom : game.settings.randomizeSpawn = false) (h : Mirrors mapId name own game solo)
    (operation : Operation) :
    Mirrors mapId name own (game.next operation)
        (solo.after (soloOperation? mapId name own (game, operation)).toList) ∨
      Barred mapId name (game.next operation) := by
  cases operation with
  | join otherMap other =>
      rw [soloOperation?]
      split_ifs with hsame
      · rw [hsame.1, hsame.2]
        exact h.join hgame hsolo hrandom
      · left
        obtain ⟨hmaps, hsettings⟩ := maps_settings_next hgame (.join otherMap other)
        exact {
          maps := h.maps.trans hmaps.symm
          settings := h.settings.trans hsettings.symm
          alone := h.alone
          dog := by
            rw [playerOn?_next_join hgame fun hboth => hsame ⟨hboth.1.symm, hboth.2.symm⟩]
            exact h.dog
          token := h.token
          offered := h.offered }
  | setHeading token heading =>
      left
      rw [soloOperation?]
      split_ifs with hown
      · obtain ⟨player, hplayer, htoken⟩ := (Option.any_eq_true _ _).mp hown
        exact h.setHeading hgame hsolo hsmall hplayer (beq_iff_eq.mp htoken)
      · apply h.setHeading_other hgame hsolo hsmall
        intro player hplayer htoken
        apply hown
        rw [hplayer, Option.any_some, beq_iff_eq]
        exact htoken
  | advance time => exact Or.inl (h.advance hgame hsolo time)
  | sessionOf token =>
      rw [next_sessionOf]
      exact Or.inl h
  | listPlayers token =>
      rw [next_listPlayers]
      exact Or.inl h
  | state token =>
      rw [next_state]
      exact Or.inl h

end Mirrors

/-- After every run of a new game the run cut down to one player mirrors it,
unless the game is barred to the player. -/
private theorem mirrors_after (hstart : start.Consistent) (hempty : start.sessions = [])
    (hrandom : start.settings.randomizeSpawn = false) (operations : List Operation)
    (hsmall : ∀ session ∈ (start.after operations).sessions, session.players.length < 2 ^ 32)
    (mapId : MapId) (name : String) :
    Mirrors mapId name start.tokens.next.1 (start.after operations)
        (start.after (soloRun mapId name start.tokens.next.1 (start.trace operations))) ∨
      Barred mapId name (start.after operations) := by
  refine And.right (run_induction (p := fun trace current => (current.Consistent ∧
    current.settings = start.settings) ∧
      ((∀ session ∈ current.sessions, session.players.length < 2 ^ 32) →
        Mirrors mapId name start.tokens.next.1 current
            (start.after (soloRun mapId name start.tokens.next.1 trace)) ∨
          Barred mapId name current))
    ⟨⟨hstart, rfl⟩, fun _ => Or.inl (.of_no_sessions hstart hempty)⟩ ?_ operations) hsmall
  rintro trace current operation ⟨⟨hcurrent, hsettings⟩, hside⟩
  have hnextSettings := (maps_settings_next hcurrent operation).2
  refine ⟨⟨hcurrent.step operation, hnextSettings.trans hsettings⟩, fun hnextSmall => ?_⟩
  have hcurrentSmall := small_of_next hcurrent operation hnextSmall
  rw [after_soloRun_snoc]
  rcases hside hcurrentSmall with hmirrors | hbarred
  · rw [← hsettings] at hrandom
    exact hmirrors.step hcurrent (hstart.after _) hcurrentSmall hrandom operation
  · exact Or.inr (hbarred.step hcurrent operation)

/-- The dog of a player who has joined ends in the same state as in the run cut
down to that player, whatever the others did. -/
theorem dog_eq_of_soloRun {maps : List StreetMap} {settings : GameSettings}
    {entropy : Supply UInt64} {tokens : Supply Token}
    (hnew : Game.new maps settings entropy tokens = .ok start)
    (hrandom : settings.randomizeSpawn = false) (operations : List Operation)
    (hsmall : ∀ session ∈ (start.after operations).sessions, session.players.length < 2 ^ 32)
    {record : JoinRecord} (hrecord : record ∈ joinsOf (start.trace operations)) :
    ∃ player own solo,
      (start.after operations).playerOn? record.mapId record.name = some player ∧
        player.token = record.answer.token ∧
      (start.after (soloRun record.mapId record.name own (start.trace operations))).playerOn?
          record.mapId record.name = some solo ∧
        solo.token = own ∧ solo.dog = player.dog := by
  have hstart := consistent_new hnew
  have hempty := sessions_new hnew
  have hsettings : start.settings.randomizeSpawn = false := by
    obtain ⟨mapPlaces, -, rfl⟩ := new_eq_ok hnew
    exact hrandom
  obtain ⟨player, hplayer, hanswer⟩ := (follows_after hstart hempty operations).exists_playerOn?
    (hstart.after operations) hrecord
  refine ⟨player, start.tokens.next.1, ?_⟩
  rcases mirrors_after hstart hempty hsettings operations hsmall record.mapId record.name with
    hmirrors | ⟨-, habsent⟩
  · have hdog := hmirrors.dog
    rw [hplayer, Option.map_some] at hdog
    obtain ⟨solo, hsolo, hsame⟩ := Option.map_eq_some_iff.mp hdog
    exact ⟨solo, hplayer, by rw [hanswer], hsolo, hmirrors.token solo hsolo, hsame⟩
  · rw [hplayer] at habsent
    cases habsent

/-- Ada drives alone as she does with Rex around. -/
theorem dog_eq_of_soloRun_ada :
    let operations := shortRun ++ [.setHeading (Token.ofNumber 1) .west, .advance ⟨500000000⟩]
    ∃ player own solo,
      (onThreeRoads.after operations).playerOn? "town" "Ada" = some player ∧
        player.token = Token.ofNumber 1 ∧
      (onThreeRoads.after (soloRun "town" "Ada" own (onThreeRoads.trace operations))).playerOn?
          "town" "Ada" = some solo ∧
        solo.token = own ∧ solo.dog = player.dog := by
  intro operations
  have hsmall : ∀ session ∈ (onThreeRoads.after operations).sessions,
      session.players.length < 2 ^ 32 := by decide +kernel
  have hrecord : ⟨"town", "Ada", ⟨Token.ofNumber 1, 1⟩⟩ ∈
      joinsOf (onThreeRoads.trace operations) := by decide +kernel
  have h := dog_eq_of_soloRun new_onThreeRoads rfl operations hsmall hrecord
  exact h

end StreetDogs.Game
