import StreetDogs.Proofs.Registry.Tick

/-!
# Steps of the clock in any order

A step of the clock may move the dogs one by one in any order, within a session
and across the sessions, and may add up the reports of the sessions in any
grouping.  The game and the report are the same: every dog is moved once, alone,
on the map of its session, and one that cannot move stays as it is.
-/

namespace StreetDogs

/-- Where a player sits: the place of the session, and the place in its roster. -/
structure Seat where
  place : ℕ
  index : ℕ
deriving DecidableEq, Repr

namespace Game

def withDog (game : Game) (seat : Seat) (dog : Dog) : Game :=
  { game with
    sessions := game.sessions.modify seat.place fun session =>
      { session with players := session.players.modify seat.index ({ · with dog }) } }

end Game

/-- A step of the clock that is under way: the game with the dogs moved by now,
and the seats of the dogs that could not move. -/
structure Underway where
  game : Game
  failed : List Seat := []

namespace Underway

def moveDog (time : Duration) (underway : Underway) (seat : Seat) : Underway :=
  match underway.game.playerAt? seat.place seat.index, underway.game.mapAt? seat.place with
  | some player, some map =>
    match player.dog.move map time with
    | .ok dog => { underway with game := underway.game.withDog seat dog }
    | .error _ => { underway with failed := seat :: underway.failed }
  | _, _ => underway

def report (underway : Underway) (place : ℕ) : AdvanceReport where
  players := (underway.game.sessions[place]?.map (·.playerCount)).getD 0
  failures := underway.failed.countP (·.place == place)

end Underway

/-- A way to add up the reports of sessions, with empty reports put in anywhere. -/
inductive Reduction where
  | empty
  | session (place : ℕ)
  | combine (left right : Reduction)

namespace Reduction

def places : Reduction → List ℕ
  | empty => []
  | session place => [place]
  | combine left right => left.places ++ right.places

def total (report : ℕ → AdvanceReport) : Reduction → AdvanceReport
  | empty => {}
  | session place => report place
  | combine left right => left.total report + right.total report

/-- The grouping does not matter. -/
theorem total_eq_sum (report : ℕ → AdvanceReport) (reduction : Reduction) :
    reduction.total report = (reduction.places.map report).sum := by
  induction reduction with
  | empty => rfl
  | session place => rw [total, places, List.map_singleton, List.sum_singleton]
  | combine left right ihl ihr =>
      rw [total, places, List.map_append, List.sum_append, ihl, ihr]

end Reduction

namespace Game

variable {game next other : Game} {time : Duration} {seat : Seat} {done order : List Seat}

/-- The session at a place is one that has the same roster. -/
private theorem SameRosters.mapAt?_eq (h : game.SameRosters next) (place : ℕ) :
    next.mapAt? place = game.mapAt? place := by
  rw [mapAt?, mapAt?]
  cases hsession : next.sessions[place]? with
  | some session =>
      obtain ⟨old, hold, hroster⟩ := h.exists_session hsession
      have hmapIndex : session.mapIndex = old.mapIndex := congrArg (·.2.1) hroster
      rw [hold, Option.bind_some, Option.bind_some, h.maps, hmapIndex]
  | none =>
      rw [List.getElem?_eq_none_iff, h.length_eq, ← List.getElem?_eq_none_iff] at hsession
      rw [hsession]
      rfl

/-- Sessions with the same roster are equal when their players are. -/
private theorem session_eq {session session' : Session} (hroster : session.roster = session'.roster)
    (hplayers : ∀ index : ℕ, session.players[index]? = session'.players[index]?) :
    session = session' := by
  have hmapId : session.mapId = session'.mapId := congrArg (·.1) hroster
  have hmapIndex : session.mapIndex = session'.mapIndex := congrArg (·.2.1) hroster
  have hlist := List.ext_getElem? hplayers
  cases session
  cases session'
  simp only at hmapId hmapIndex hlist
  rw [hmapId, hmapIndex, hlist]

/-- Games with the rosters of a third one are equal when their players are. -/
private theorem eq_of_playerAt?_eq (h : game.SameRosters next) (h' : game.SameRosters other)
    (hplayers : ∀ place index, next.playerAt? place index = other.playerAt? place index) :
    next = other := by
  have hsessions : next.sessions = other.sessions := by
    apply List.ext_getElem?
    intro place
    cases hsession : next.sessions[place]? with
    | none =>
        rw [List.getElem?_eq_none_iff, h.length_eq, ← h'.length_eq] at hsession
        exact (List.getElem?_eq_none hsession).symm
    | some session =>
        obtain ⟨old, hold, hroster⟩ := h.exists_session hsession
        obtain ⟨session', hsession', hroster'⟩ := h'.symm.exists_session hold
        rw [hsession', Option.some_inj]
        refine session_eq (hroster.trans hroster') fun index => ?_
        have hindex := hplayers place index
        rwa [playerAt?, playerAt?, hsession, hsession', Option.bind_some, Option.bind_some]
          at hindex
  obtain ⟨hmaps, hmapPlaces, hsessionPlaces, hsettings, hwords, htokens, -⟩ := h
  obtain ⟨hmaps', hmapPlaces', hsessionPlaces', hsettings', hwords', htokens', -⟩ := h'
  cases next
  cases other
  simp only at *
  subst_vars
  rfl

/-- Only the dog at the seat is replaced. -/
private theorem playerAt?_withDog (game : Game) (seat : Seat) (dog : Dog) (place index : ℕ) :
    (game.withDog seat dog).playerAt? place index =
      (game.playerAt? place index).map fun player =>
        if (⟨place, index⟩ : Seat) = seat then { player with dog } else player := by
  obtain ⟨seatPlace, seatIndex⟩ := seat
  rw [playerAt?, withDog, List.getElem?_modify, playerAt?]
  cases game.sessions[place]? with
  | none => rfl
  | some session =>
      simp only [Option.map_eq_map, Option.map_some, Option.bind_some, Seat.mk.injEq]
      by_cases hplace : seatPlace = place
      · rw [if_pos hplace, List.getElem?_modify]
        cases session.players[index]? with
        | none => rfl
        | some player => simp [hplace, eq_comm]
      · rw [if_neg hplace]
        cases session.players[index]? with
        | none => rfl
        | some player => simp [Ne.symm hplace]

private theorem sameRosters_withDog (game : Game) (seat : Seat) (dog : Dog) :
    game.SameRosters (game.withDog seat dog) := by
  refine ⟨rfl, rfl, rfl, rfl, rfl, rfl, ?_⟩
  apply List.ext_getElem?
  intro place
  rw [withDog, List.getElem?_map, List.getElem?_map, List.getElem?_modify]
  cases game.sessions[place]? with
  | none => rfl
  | some session =>
      simp only [Option.map_eq_map, Option.map_some]
      split_ifs
      · rw [Session.roster, map_entry_modify session.players seat.index fun _ => dog]
        rfl
      · rfl

private def failsAt (game : Game) (time : Duration) (seat : Seat) : Bool :=
  match game.playerAt? seat.place seat.index, game.mapAt? seat.place with
  | some player, some map => Session.moveFails map time player
  | _, _ => false

/-- What moving the dog at a seat does to a step under way. -/
private structure Moves (time : Duration) (seat : Seat) (underway next : Underway) : Prop where
  same : underway.game.SameRosters next.game
  players : ∀ place index, next.game.playerAt? place index =
    (underway.game.playerAt? place index).map fun player =>
      if (⟨place, index⟩ : Seat) = seat then
        { player with dog := underway.game.movedAt time seat.place player.dog }
      else player
  failed : next.failed =
    if underway.game.failsAt time seat then seat :: underway.failed else underway.failed

/-- A dog that stays as it is counts as moved to where it is. -/
private theorem moves_of_stay {underway : Underway} {failed : List Seat}
    (hstay : ∀ player, underway.game.playerAt? seat.place seat.index = some player →
      underway.game.movedAt time seat.place player.dog = player.dog)
    (hfailed : failed =
      if underway.game.failsAt time seat then seat :: underway.failed else underway.failed) :
    Moves time seat underway { underway with failed } := by
  refine ⟨.refl _, fun place index => ?_, hfailed⟩
  cases hplayer : underway.game.playerAt? place index with
  | none => rfl
  | some player =>
      rw [Option.map_some]
      split_ifs with hseat
      · subst hseat
        rw [hstay player hplayer]
      · rfl

private theorem moves_of_move {underway : Underway} {player : Player} {map : StreetMap} {dog : Dog}
    (hplayer : underway.game.playerAt? seat.place seat.index = some player)
    (hmap : underway.game.mapAt? seat.place = some map)
    (hmove : player.dog.move map time = .ok dog) :
    Moves time seat underway { underway with game := underway.game.withDog seat dog } := by
  refine ⟨sameRosters_withDog _ _ _, fun place index => ?_, ?_⟩
  · rw [playerAt?_withDog]
    cases hat : underway.game.playerAt? place index with
    | none => rfl
    | some found =>
        rw [Option.map_some, Option.map_some]
        split_ifs with hseat
        · subst hseat
          rw [hplayer, Option.some_inj] at hat
          simp only [movedAt, hmap, ← hat, Dog.moveOrStay, hmove]
        · rfl
  · rw [failsAt, hplayer, hmap]
    simp only [Session.moveFails, hmove]
    rfl

private theorem moves_moveDog (time : Duration) (underway : Underway) (seat : Seat) :
    Moves time seat underway (underway.moveDog time seat) := by
  rw [Underway.moveDog]
  cases hplayer : underway.game.playerAt? seat.place seat.index with
  | none =>
      apply moves_of_stay
      · rw [hplayer]
        exact nofun
      · rw [failsAt, hplayer]
        rfl
  | some player =>
      cases hmap : underway.game.mapAt? seat.place with
      | none =>
          apply moves_of_stay
          · intro player _
            rw [movedAt, hmap]
          · rw [failsAt, hplayer, hmap]
            rfl
      | some map =>
          dsimp only
          cases hmove : player.dog.move map time with
          | ok dog => exact moves_of_move hplayer hmap hmove
          | error error =>
              apply moves_of_stay
              · intro found hfound
                rw [hplayer, Option.some_inj] at hfound
                simp only [movedAt, hmap, ← hfound, Dog.moveOrStay, hmove]
              · rw [failsAt, hplayer, hmap]
                simp only [Session.moveFails, hmove, if_true]

/-! ## A step under way -/

/-- The step that is under way has moved the dogs at the seats `done`, each
once. -/
private structure Progress (game : Game) (time : Duration) (done : List Seat)
    (underway : Underway) : Prop where
  same : game.SameRosters underway.game
  players : ∀ place index, underway.game.playerAt? place index =
    (game.playerAt? place index).map fun player =>
      if (⟨place, index⟩ : Seat) ∈ done then
        { player with dog := game.movedAt time place player.dog }
      else player
  failed : underway.failed = done.filter (game.failsAt time)

/-- One more dog is moved. -/
private theorem Progress.moveDog {underway : Underway} (h : Progress game time done underway)
    (hseat : seat ∉ done) : Progress game time (seat :: done) (underway.moveDog time seat) := by
  have hmoves := moves_moveDog time underway seat
  have hmoved : underway.game.movedAt time seat.place = game.movedAt time seat.place := by
    funext dog
    rw [movedAt, movedAt, h.same.mapAt?_eq]
  have hfails : underway.game.failsAt time seat = game.failsAt time seat := by
    have hplayer : underway.game.playerAt? seat.place seat.index =
        game.playerAt? seat.place seat.index := by
      rw [h.players]
      cases game.playerAt? seat.place seat.index with
      | none => rfl
      | some player => rw [Option.map_some, if_neg hseat]
    rw [failsAt, failsAt, hplayer, h.same.mapAt?_eq]
  refine ⟨h.same.trans hmoves.same, fun place index => ?_, ?_⟩
  · rw [hmoves.players, h.players, Option.map_map]
    congr 1
    funext player
    rw [Function.comp_apply, hmoved]
    by_cases hhere : (⟨place, index⟩ : Seat) = seat
    · subst hhere
      rw [if_pos rfl, if_neg hseat, if_pos List.mem_cons_self]
    · rw [if_neg hhere]
      simp only [List.mem_cons, hhere, false_or]
  · rw [hmoves.failed, hfails, h.failed, List.filter_cons]

private theorem progress_foldl {underway : Underway} (h : Progress game time done underway)
    (hnodup : order.Nodup) (hfresh : ∀ seat ∈ order, seat ∉ done) :
    Progress game time (order.reverse ++ done) (order.foldl (Underway.moveDog time) underway) := by
  induction order generalizing done underway with
  | nil => exact h
  | cons seat order ih =>
      rw [List.nodup_cons] at hnodup
      rw [List.reverse_cons, List.append_assoc, List.foldl_cons]
      apply ih (h.moveDog (hfresh seat List.mem_cons_self)) hnodup.2
      intro other hother hmem
      rcases List.mem_cons.mp hmem with rfl | hdone
      · exact hnodup.1 hother
      · exact hfresh other (List.mem_cons_of_mem _ hother) hdone

/-- Every seat of the game is in the order, once. -/
structure Visits (game : Game) (order : List Seat) : Prop where
  nodup : order.Nodup
  mem_iff : ∀ seat, seat ∈ order ↔ (game.playerAt? seat.place seat.index).isSome = true

private theorem progress_order (game : Game) (hnodup : order.Nodup) (time : Duration) :
    Progress game time order.reverse (order.foldl (Underway.moveDog time) ⟨game, []⟩) := by
  have hstart : Progress game time [] ⟨game, []⟩ := by
    refine ⟨.refl game, fun place index => ?_, rfl⟩
    cases game.playerAt? place index with
    | none => rfl
    | some player => rw [Option.map_some, if_neg List.not_mem_nil]
  have hend := progress_foldl hstart hnodup fun _ _ => List.not_mem_nil
  rwa [List.append_nil] at hend

/-- After the dogs of a whole order the game is that of the step. -/
private theorem game_of_order (horder : Visits game order) (time : Duration) :
    (order.foldl (Underway.moveDog time) ⟨game, []⟩).game = (game.advance time).2 := by
  have hprogress := progress_order game horder.nodup time
  apply eq_of_playerAt?_eq hprogress.same (sameRosters_advance game time)
  intro place index
  rw [hprogress.players, playerAt?_advance]
  cases hplayer : game.playerAt? place index with
  | none => rfl
  | some player =>
      have hmem := (horder.mem_iff ⟨place, index⟩).mpr (Option.isSome_of_eq_some hplayer)
      rw [Option.map_some, Option.map_some, if_pos (List.mem_reverse.mpr hmem)]

/-- Values at the places of a list are values of its entries. -/
private theorem map_range_eq {α β : Type} {entries : List α} {f : ℕ → β} {g : α → β}
    (h : ∀ index entry, entries[index]? = some entry → f index = g entry) :
    (List.range entries.length).map f = entries.map g := by
  apply List.ext_getElem
  · rw [List.length_map, List.length_range, List.length_map]
  · intro index _ hindex
    rw [List.length_map] at hindex
    rw [List.getElem_map, List.getElem_map, List.getElem_range]
    exact h index _ (List.getElem?_eq_getElem hindex)

/-- An order has the seats of one session in some order. -/
private theorem perm_seats {session : Session} {place : ℕ} (horder : Visits game order)
    (hsession : game.sessions[place]? = some session) :
    (order.filter (·.place == place)).Perm
      ((List.range session.players.length).map (Seat.mk place)) := by
  have hinjective : Function.Injective (Seat.mk place) := fun _ _ h => (Seat.mk.inj h).2
  rw [List.perm_ext_iff_of_nodup (horder.nodup.filter _)
    (List.nodup_range.map hinjective)]
  rintro ⟨onPlace, index⟩
  rw [List.mem_filter, horder.mem_iff, List.mem_map, beq_iff_eq]
  constructor
  · rintro ⟨hplayer, rfl⟩
    rw [playerAt?, hsession, Option.bind_some, isSome_getElem?] at hplayer
    exact ⟨index, List.mem_range.mpr hplayer, rfl⟩
  · rintro ⟨_, hindex, hseat⟩
    obtain ⟨rfl, rfl⟩ := Seat.mk.inj hseat
    rw [playerAt?, hsession, Option.bind_some]
    exact ⟨by simpa using hindex, rfl⟩

/-- The dogs of a session that failed are those that cannot move on its map. -/
private theorem countP_failed {session : Session} {map : StreetMap} {place : ℕ}
    (horder : Visits game order) (hsession : game.sessions[place]? = some session)
    (hmap : game.maps[session.mapIndex]? = some map) (time : Duration) :
    (order.foldl (Underway.moveDog time) ⟨game, []⟩).failed.countP (·.place == place) =
      session.players.countP (Session.moveFails map time) := by
  have hfails : ∀ index player, session.players[index]? = some player →
      game.failsAt time ⟨place, index⟩ = Session.moveFails map time player := by
    intro index player hplayer
    simp only [failsAt, playerAt?, mapAt?, hsession, Option.bind_some, hplayer, hmap]
  calc (order.foldl (Underway.moveDog time) ⟨game, []⟩).failed.countP (·.place == place)
      = (order.filter (·.place == place)).countP (game.failsAt time) := by
        rw [(progress_order game horder.nodup time).failed, List.filter_reverse,
          List.countP_reverse, List.countP_filter, List.countP_filter]
        simp only [Bool.and_comm]
    _ = ((List.range session.players.length).map fun index =>
          game.failsAt time ⟨place, index⟩).countP id := by
        rw [(perm_seats horder hsession).countP_eq, List.countP_map, List.countP_map]
        rfl
    _ = session.players.countP (Session.moveFails map time) := by
        rw [map_range_eq hfails, List.countP_map]
        rfl

/-- A session reports the same, whatever the order of the dogs. -/
private theorem report_of_order {session : Session} {place : ℕ} (hgame : game.Consistent)
    (horder : Visits game order) (hsession : game.sessions[place]? = some session)
    (time : Duration) :
    (order.foldl (Underway.moveDog time) ⟨game, []⟩).report place =
      (advanceSession game.maps time session).1 := by
  obtain ⟨map, hmap, -⟩ := hgame.exists_map (List.mem_of_getElem? hsession)
  rw [Underway.report, countP_failed horder hsession hmap, game_of_order horder, advance]
  simp only [List.map_map, List.getElem?_map, hsession, Option.map_some, Option.getD_some,
    Function.comp_apply, advanceSession, hmap, Session.advance]

/-- All sessions report the same, whatever the order and the grouping. -/
private theorem total_of_order (hgame : game.Consistent) (horder : Visits game order)
    {reduction : Reduction}
    (hreduction : reduction.places.Perm (List.range game.sessions.length)) (time : Duration) :
    reduction.total (order.foldl (Underway.moveDog time) ⟨game, []⟩).report =
      (game.advance time).1 := by
  rw [reduction.total_eq_sum, (hreduction.map _).sum_eq, report_advance,
    map_range_eq fun _ _ hsession => report_of_order hgame horder hsession time]

/-- In every game that a run leads to, a step of the clock moves the dogs one by
one in any order, with the reports of the sessions added up in any grouping. -/
theorem advance_any_order {maps : List StreetMap} {settings : GameSettings}
    {entropy : Supply UInt64} {tokens : Supply Token} {start : Game}
    (hnew : Game.new maps settings entropy tokens = .ok start) (operations : List Operation)
    (time : Duration) {order : List Seat} (horder : Visits (start.after operations) order)
    {reduction : Reduction} (hreduction : reduction.places.Perm
      (List.range (start.after operations).sessions.length)) :
    let game := start.after operations
    let done := order.foldl (Underway.moveDog time) ⟨game, []⟩
    (reduction.total done.report, done.game) = game.advance time ∧
      Ticked game time (game.advance time).1 (game.advance time).2 := by
  have hgame := (consistent_new hnew).after operations
  exact ⟨Prod.ext (total_of_order hgame horder hreduction time) (game_of_order horder time),
    ticked_advance hgame (roads_known_after hnew operations) time⟩

/-- Rex and Ada can be moved last first. -/
theorem advance_any_order_shortRun :
    let game := onThreeRoads.after shortRun
    let time : Duration := ⟨1000000000⟩
    let done := [⟨0, 1⟩, ⟨0, 0⟩].foldl (Underway.moveDog time) ⟨game, []⟩
    ((Reduction.combine .empty (.session 0)).total done.report, done.game) = game.advance time ∧
      Ticked game time (game.advance time).1 (game.advance time).2 := by
  have hplayers : (onThreeRoads.after shortRun).sessions.map (·.players.length) = [2] := by
    decide +kernel
  have hsessions : (onThreeRoads.after shortRun).sessions.length = 1 := by
    simpa using congrArg List.length hplayers
  have hreduction : (Reduction.combine .empty (.session 0)).places.Perm
      (List.range (onThreeRoads.after shortRun).sessions.length) := by
    rw [hsessions]
    exact .refl [0]
  have horder : Visits (onThreeRoads.after shortRun) [⟨0, 1⟩, ⟨0, 0⟩] := by
    refine ⟨by decide, fun ⟨place, index⟩ => ?_⟩
    have hseat : ((onThreeRoads.after shortRun).playerAt? place index).isSome =
        ([2][place]?).any (index < ·) := by
      rw [playerAt?, ← hplayers, List.getElem?_map]
      cases (onThreeRoads.after shortRun).sessions[place]? with
      | none => rfl
      | some session => exact Bool.eq_iff_iff.mpr (by simp)
    rw [hseat]
    cases place with
    | zero =>
        simp
        omega
    | succ place => simp
  exact advance_any_order new_onThreeRoads shortRun _ horder hreduction

end Game

end StreetDogs
