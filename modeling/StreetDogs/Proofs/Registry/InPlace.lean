import StreetDogs.Game.Update
import StreetDogs.Proofs.Registry.Admission

/-!
# Joins in place

The steps of a join come to what the join does as a whole.  In a consistent
game no step fails after an earlier one has changed the game, except that the
supply of tokens may have nothing left to offer.
-/

namespace StreetDogs

section Bind

variable {ε σ α β : Type} {first : EStateM ε σ α} {later : α → EStateM ε σ β} {state left : σ}

theorem bind_of_ok {result : α} (h : first state = .ok result left) :
    (first >>= later) state = later result left := by
  change EStateM.bind first later state = _
  rw [EStateM.bind, h]

theorem bind_of_error {error : ε} (h : first state = .error error left) :
    (first >>= later) state = .error error left := by
  change EStateM.bind first later state = _
  rw [EStateM.bind, h]

end Bind

namespace Update

variable {α : Type} {game next : Game} {mapId : MapId} {name : String}

def outcome : EStateM.Result GameError Game α → Except GameError (α × Game)
  | .ok result game => .ok (result, game)
  | .error error _ => .error error

theorem outcome_eq_ok {result : EStateM.Result GameError Game α} {value : α} :
    outcome result = .ok (value, next) ↔ result = .ok value next := by
  cases result with
  | ok found game =>
      rw [outcome, Except.ok.injEq, Prod.mk.injEq, EStateM.Result.ok.injEq]
  | error error game => exact iff_of_false nofun nofun

/-- An update that fails leaves the game as it met it, unless no token is left. -/
def FailsClean (game : Game) : EStateM.Result GameError Game α → Prop
  | .ok _ _ => True
  | .error error left => error = .tokensExhausted ∨ left = game

/-- A new player is always seated, because every map has roads. -/
private theorem seatPlayer_eq (map : StreetMap) (place : ℕ) (session : Session) (name : String)
    (token : Token) (game : Game) :
    seatPlayer map place session name token game =
      let (player, session, words) :=
        session.join name map game.settings.randomizeSpawn game.words token
      .ok player { game with sessions := game.sessions.set place session, words } := by
  have hroads : ¬ map.roads.isEmpty = true := by simpa using map.roads_ne_nil
  rw [seatPlayer, if_neg hroads]

/-- Goes over to the game of a result, and stays in this one on an error. -/
private def settle (game : Game) :
    Except GameError (α × Game) → EStateM.Result GameError Game α
  | .ok (result, next) => .ok result next
  | .error error => .error error game

private theorem outcome_settle (game : Game) (result : Except GameError (α × Game)) :
    outcome (settle game result) = result := by
  cases result <;> rfl

private theorem join_of_session {map : StreetMap} {mapPlace place : ℕ} {session : Session}
    (hname : ¬ name.isEmpty = true) (hplace : game.mapPlaces.place? mapId = some mapPlace)
    (hmap : game.maps[mapPlace]? = some map)
    (hopened : game.withSession map mapPlace = (next, place))
    (hsession : next.sessions[place]? = some session) :
    join mapId name game = settle next (next.enrol map place session name) := by
  have hfind : findMap mapId game = .ok (map, mapPlace) game := by
    simp only [findMap, hplace, hmap]
  have hopen : openSession map mapPlace game = .ok place next := by
    simp only [openSession, hopened]
  have hat : sessionAt place next = .ok session next := by
    simp only [sessionAt, hsession]
  rw [join, if_neg hname, bind_of_ok hfind]
  dsimp only
  rw [bind_of_ok hopen, bind_of_ok hat, Game.enrol]
  cases session.playerNamed? name with
  | some player => rfl
  | none =>
      dsimp only
      cases htoken : next.unusedToken? with
      | none => exact bind_of_error (by simp only [drawToken, htoken])
      | some drawn =>
          obtain ⟨token, tokens⟩ := drawn
          have hdraw : drawToken next = .ok token { next with tokens } := by
            simp only [drawToken, htoken]
          rw [bind_of_ok hdraw, bind_of_ok (seatPlayer_eq map place session name token _)]
          rfl

private theorem join_of_unknown_map (hname : ¬ name.isEmpty = true)
    (hplace : game.mapPlaces.place? mapId = none) :
    join mapId name game = .error (.mapNotFound mapId) game := by
  have hfind : findMap mapId game = .error (.mapNotFound mapId) game := by
    simp only [findMap, hplace]
  rw [join, if_neg hname, bind_of_error hfind]

/-- In a consistent game the steps of a join come to the join, and a join that
is refused leaves nothing behind. -/
theorem join_agrees (hgame : game.Consistent) (mapId : MapId) (name : String) :
    outcome (join mapId name game) = game.join mapId name ∧
      FailsClean game (join mapId name game) := by
  by_cases hname : name.isEmpty = true
  · rw [Game.join, if_pos hname, join, if_pos hname]
    exact ⟨rfl, Or.inr rfl⟩
  cases hplace : game.mapPlaces.place? mapId with
  | none =>
      rw [join_of_unknown_map hname hplace, Game.join, if_neg hname, hplace]
      exact ⟨rfl, Or.inr rfl⟩
  | some mapPlace =>
      obtain ⟨map, hmap, -⟩ :=
        Option.map_eq_some_iff.mp ((hgame.mapPlaces mapId mapPlace).mp hplace)
      obtain ⟨opened, place, session, hopened, hsession⟩ :
          ∃ opened place session, game.withSession map mapPlace = (opened, place) ∧
            opened.sessions[place]? = some session := by
        rcases Game.withSession_cases hgame map mapPlace with
          ⟨place, session, hopened, hsession, -⟩ | ⟨-, hopened⟩
        · exact ⟨_, _, session, hopened, hsession⟩
        · exact ⟨_, _, _, hopened, List.getElem?_concat_length⟩
      rw [join_of_session hname hplace hmap hopened hsession,
        Game.join_eq (by simpa using hname) hplace hmap hopened hsession]
      refine ⟨outcome_settle _ _, ?_⟩
      cases henrol : opened.enrol map place session name with
      | ok _ => exact trivial
      | error error => exact Or.inl (Game.enrol_error henrol).1

end Update

end StreetDogs
