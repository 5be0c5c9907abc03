import StreetDogs.Proofs.Registry.Integrity

/-!
# Steps of the clock

A step of the clock moves every dog on the map of its session, and the reports
of the sessions are added up.  A dog that cannot move stays as it is, which
happens exactly when the point it would get to is not finite.
-/

namespace StreetDogs

namespace AdvanceReport

instance : Zero AdvanceReport := ⟨{}⟩

instance : AddCommMonoid AdvanceReport where
  add_assoc a b c := congrArg₂ mk (Nat.add_assoc ..) (Nat.add_assoc ..)
  zero_add a := congrArg₂ mk (Nat.zero_add _) (Nat.zero_add _)
  add_zero a := rfl
  add_comm a b := congrArg₂ mk (Nat.add_comm ..) (Nat.add_comm ..)
  nsmul := nsmulRec

def playersHom : AdvanceReport →+ ℕ where
  toFun := players
  map_zero' := rfl
  map_add' _ _ := rfl

def failuresHom : AdvanceReport →+ ℕ where
  toFun := failures
  map_zero' := rfl
  map_add' _ _ := rfl

end AdvanceReport

namespace Game

variable {game : Game}

/-- After every run from a new game all dogs are anchored to roads of their maps. -/
theorem roads_known_after {maps : List StreetMap} {settings : GameSettings}
    {entropy : Supply UInt64} {tokens : Supply Token}
    (hnew : Game.new maps settings entropy tokens = .ok game) (operations : List Operation) :
    (game.after operations).EveryDog
      fun map dog => (map.road? dog.motion.road).isSome = true := by
  apply EveryDog.after anchored_invariant (consistent_new hnew) fun _ => trivial
  rw [EveryDog, sessions_new hnew]
  exact List.forall_mem_nil _

theorem report_advance (game : Game) (time : Duration) :
    (game.advance time).1 =
      (game.sessions.map fun session => (advanceSession game.maps time session).1).sum := by
  rw [List.sum_eq_foldl, advance, List.map_map]
  rfl

/-- What a step of the clock comes to. -/
structure Ticked (game : Game) (time : Duration) (report : AdvanceReport) (next : Game) :
    Prop where
  /-- Rosters, sessions and supplies stay. -/
  same : game.SameRosters next
  /-- Every session has its own map. -/
  mapped : ∀ place session, game.sessions[place]? = some session →
    ∃ map, game.mapAt? place = some map ∧ map.id = session.mapId
  /-- A dog that can move does so once, alone, on the map of its session. -/
  moved : ∀ place index player map dog, game.playerAt? place index = some player →
    game.mapAt? place = some map → player.dog.move map time = .ok dog →
      next.playerAt? place index = some { player with dog }
  /-- A dog that cannot move keeps its whole state. -/
  stayed : ∀ place index player map error, game.playerAt? place index = some player →
    game.mapAt? place = some map → player.dog.move map time = .error error →
      next.playerAt? place index = some player
  commanded : ∀ place index,
    (next.playerAt? place index).map (fun player => (player.dog.heading, player.dog.command)) =
      (game.playerAt? place index).map fun player => (player.dog.heading, player.dog.command)
  players : report.players = game.playerCount
  /-- The dogs that fail are those without a finite candidate. -/
  failures : report.failures = (game.sessions.flatMap (·.players)).countP fun player =>
    !(player.dog.motion.candidate player.dog.command time).isFinite

/-- A step reports all players. -/
theorem players_report (game : Game) (time : Duration) :
    (game.advance time).1.players = game.playerCount := by
  change AdvanceReport.playersHom _ = _
  rw [report_advance, map_list_sum, List.map_map, playerCount_eq_sum]
  congr 1
  apply List.map_congr_left
  intro session _
  rw [Function.comp_apply, advanceSession]
  cases game.maps[session.mapIndex]? with
  | none => rfl
  | some map => exact List.length_map _

/-- An anchored dog fails to move exactly when its candidate is not finite. -/
private theorem moveFails_eq {map : StreetMap} {player : Player}
    (h : (map.road? player.dog.motion.road).isSome = true) (time : Duration) :
    Session.moveFails map time player =
      !(player.dog.motion.candidate player.dog.command time).isFinite := by
  obtain ⟨road, hroad⟩ := Option.isSome_iff_exists.mp h
  rw [Session.moveFails, Dog.move, Motion.advance_eq hroad]
  cases (player.dog.motion.candidate player.dog.command time).isFinite <;> rfl

private theorem failures_advance (hgame : game.Consistent)
    (hdogs : game.EveryDog fun map dog => (map.road? dog.motion.road).isSome = true)
    (time : Duration) :
    (game.advance time).1.failures = (game.sessions.flatMap (·.players)).countP fun player =>
      !(player.dog.motion.candidate player.dog.command time).isFinite := by
  change AdvanceReport.failuresHom _ = _
  rw [report_advance, map_list_sum, List.map_map, List.countP_flatMap]
  congr 1
  apply List.map_congr_left
  intro session hsession
  obtain ⟨map, hmap, -⟩ := hgame.exists_map hsession
  simp only [Function.comp_apply, advanceSession, hmap, Session.advance]
  apply List.countP_congr
  intro player hplayer
  rw [moveFails_eq (hdogs session hsession map hmap player hplayer)]

theorem ticked_advance (hgame : game.Consistent)
    (hdogs : game.EveryDog fun map dog => (map.road? dog.motion.road).isSome = true)
    (time : Duration) : Ticked game time (game.advance time).1 (game.advance time).2 where
  same := sameRosters_advance game time
  mapped place session hsession := by
    obtain ⟨map, hmap, hid⟩ := hgame.exists_map (List.mem_of_getElem? hsession)
    exact ⟨map, by rw [mapAt?, hsession, Option.bind_some, hmap], hid⟩
  moved place index player map dog hplayer hmap hmove := by
    rw [playerAt?_advance, hplayer, Option.map_some, movedAt, hmap]
    simp only [Dog.moveOrStay, hmove]
  stayed place index player map error hplayer hmap hmove := by
    rw [playerAt?_advance, hplayer, Option.map_some, movedAt, hmap]
    simp only [Dog.moveOrStay, hmove]
  commanded place index := by
    rw [playerAt?_advance, Option.map_map]
    congr 1
    funext player
    rw [Function.comp_apply, movedAt]
    cases game.mapAt? place with
    | none => rfl
    | some map =>
        rw [player.dog.moveOrStay_heading map time, player.dog.moveOrStay_command map time]
  players := players_report game time
  failures := failures_advance hgame hdogs time

end Game

end StreetDogs
