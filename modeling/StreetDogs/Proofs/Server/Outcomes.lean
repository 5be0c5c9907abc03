import StreetDogs.Server
import StreetDogs.Proofs.Registry.Admission

/-!
# Outcomes of requests

What a request comes to, told as a whole: an answer with the game after it, or
an error.  An error comes without a game, so nothing can be left behind by a
request that is refused.
-/

namespace StreetDogs

open Api (Request Response ApiError)

/-- The request asks and wants nothing done. -/
def Api.Request.isQuery : Request → Bool
  | getMaps | getMap _ | listPlayers _ | getState _ => true
  | join _ _ | setDirection _ _ | tick _ => false

namespace Game

variable {game next : Game} {mode : TickMode} {request : Request} {response : Response}
  {error : ApiError} {raw code : String} {mapId : MapId} {name : String}
  {timeDelta : Option Json.Value} {n : ℕ}

def answerJoin (game : Game) (mapId : MapId) (name : String) :
    Except ApiError (Response × Game) :=
  match game.join mapId name with
  | .ok (joined, next) => .ok (.joined joined, next)
  | .error cause => .error (.game cause)

theorem answerJoin_eq_ok (h : game.answerJoin mapId name = .ok (response, next)) :
    ∃ joined, game.join mapId name = .ok (joined, next) := by
  rw [answerJoin] at h
  cases hjoin : game.join mapId name with
  | error cause => simp [hjoin] at h
  | ok joined =>
      simp only [hjoin] at h
      obtain ⟨-, rfl⟩ := Prod.mk.inj (Except.ok.inj h)
      exact ⟨joined.1, rfl⟩

theorem answerJoin_eq_error (h : game.answerJoin mapId name = .error error) :
    ∃ cause, game.join mapId name = .error cause ∧ error = .game cause := by
  rw [answerJoin] at h
  cases hjoin : game.join mapId name with
  | ok joined => simp [hjoin] at h
  | error cause =>
      simp only [hjoin] at h
      exact ⟨cause, rfl, (Except.error.inj h).symm⟩

/-- A join under a name on a map that exists succeeds, unless no token is left. -/
theorem answerJoin_of_known (hgame : game.Consistent) {map : StreetMap} (hname : name ≠ "")
    (hmap : map ∈ game.maps) (hmapId : map.id = mapId) :
    (∃ joined next, game.answerJoin mapId name = .ok (.joined joined, next)) ∨
      game.answerJoin mapId name = .error (.game .tokensExhausted) := by
  rw [answerJoin]
  cases hjoin : game.join mapId name with
  | ok joined => exact Or.inl ⟨joined.1, joined.2, rfl⟩
  | error cause =>
      rcases join_error hgame hjoin with ⟨-, hempty⟩ | ⟨-, hunknown⟩ | ⟨rfl, -⟩
      · exact absurd hempty hname
      · exact absurd hmapId (hunknown map hmap)
      · exact Or.inr rfl

def answerHeading (game : Game) (raw code : String) : Except ApiError (Response × Game) :=
  match Token.ofClient? raw with
  | none => .error .invalidToken
  | some token =>
    match Heading.ofCode? code with
    | none => .error (.game (.invalidHeading code))
    | some heading =>
      match game.setHeading token heading with
      | .ok next => .ok (.ok, next)
      | .error cause => .error (.game cause)

/-- A command that is well written succeeds, unless nobody holds the token. -/
theorem answerHeading_of_read (hgame : game.Consistent) {token : Token} {heading : Heading}
    (htoken : Token.ofClient? raw = some token) (hcode : Heading.ofCode? code = some heading) :
    (∃ next, game.setHeading token heading = .ok next ∧
        game.answerHeading raw code = .ok (.ok, next)) ∨
      game.findByToken? token = none ∧
        game.answerHeading raw code = .error (.game .unknownToken) := by
  simp only [answerHeading, htoken, hcode]
  cases hset : game.setHeading token heading with
  | ok next => exact Or.inl ⟨next, rfl, rfl⟩
  | error cause =>
      obtain ⟨rfl, hnone⟩ := hgame.setHeading_error hset
      exact Or.inr ⟨hnone, rfl⟩

theorem answerHeading_cases (hgame : game.Consistent) (raw code : String) :
    game.answerHeading raw code = .error .invalidToken ∨
      game.answerHeading raw code = .error (.game (.invalidHeading code)) ∨
      game.answerHeading raw code = .error (.game .unknownToken) ∨
      ∃ token heading next, game.setHeading token heading = .ok next ∧
        game.answerHeading raw code = .ok (.ok, next) := by
  cases htoken : Token.ofClient? raw with
  | none => exact Or.inl (by rw [answerHeading, htoken])
  | some token =>
      right
      cases hcode : Heading.ofCode? code with
      | none => exact Or.inl (by simp only [answerHeading, htoken, hcode])
      | some heading =>
          right
          rcases answerHeading_of_read hgame htoken hcode with ⟨next, hset, hanswer⟩ | ⟨-, hanswer⟩
          · exact Or.inr ⟨token, heading, next, hset, hanswer⟩
          · exact Or.inl hanswer

def answerTick (game : Game) (mode : TickMode) (timeDelta : Option Json.Value) :
    Except ApiError (Response × Game) :=
  if mode.isPeriodic then .error .tickNotPermitted
  else
    match timeDelta.bind (·.natural?) with
    | some milliseconds => .ok (.ok, (game.advance (.ofMilliseconds milliseconds)).2)
    | none => .error (.game .badTimeDelta)

/-- A time is a whole number that fits 64 bits. -/
theorem natural?_eq_some : timeDelta.bind (·.natural?) = some n ↔
    n < 2 ^ 64 ∧ timeDelta = some (.number (.integer n)) := by
  have hsize : (UInt64.size : ℤ) = 2 ^ 64 := by decide
  constructor
  · intro h
    obtain ⟨value, rfl, hvalue⟩ := Option.bind_eq_some_iff.mp h
    unfold Json.Value.natural? at hvalue
    split at hvalue
    next integer =>
      split_ifs at hvalue with hrange
      obtain rfl := Option.some.inj hvalue
      rw [Int.toNat_of_nonneg hrange.1]
      exact ⟨by omega, rfl⟩
    next => cases hvalue
  · rintro ⟨hlt, rfl⟩
    have hrange : (0 : ℤ) ≤ n ∧ (n : ℤ) < UInt64.size := by omega
    rw [Option.bind_some, Json.Value.natural?, if_pos hrange, Int.toNat_natCast]

theorem answerTick_of_natural (game : Game) (hlt : n < 2 ^ 64) :
    game.answerTick .external (some (.number (.integer n))) =
      .ok (.ok, (game.advance (.ofMilliseconds n)).2) := by
  rw [answerTick, if_neg nofun, natural?_eq_some.mpr ⟨hlt, rfl⟩]

/-- A step is taken when no clock takes the steps and the time is a number. -/
theorem answerTick_cases (game : Game) (mode : TickMode) (timeDelta : Option Json.Value) :
    game.answerTick mode timeDelta = .error .tickNotPermitted ∨
      game.answerTick mode timeDelta = .error (.game .badTimeDelta) ∨
      mode = .external ∧ ∃ n : ℕ, n < 2 ^ 64 ∧ timeDelta = some (.number (.integer n)) ∧
        game.answerTick mode timeDelta = .ok (.ok, (game.advance (.ofMilliseconds n)).2) := by
  cases mode with
  | periodic period => exact Or.inl rfl
  | external =>
      right
      cases hdelta : timeDelta.bind (·.natural?) with
      | none => exact Or.inl (by rw [answerTick, if_neg nofun, hdelta])
      | some n =>
          obtain ⟨hlt, rfl⟩ := natural?_eq_some.mp hdelta
          exact Or.inr ⟨rfl, n, hlt, rfl, answerTick_of_natural game hlt⟩

def answerQuery {α : Type} (game : Game) (raw : String) (ask : Game → Token → Except GameError α)
    (answer : α → Response) : Except ApiError (Response × Game) :=
  match Token.ofClient? raw with
  | none => .error .invalidToken
  | some token =>
    match ask game token with
    | .ok result => .ok (answer result, game)
    | .error cause => .error (.game cause)

/-- A question leaves the game, and is refused when nobody holds the token. -/
theorem answerQuery_cases {α : Type} {ask : Game → Token → Except GameError α}
    (hask : ∀ token cause, ask game token = .error cause → cause = .unknownToken) (raw : String)
    (answer : α → Response) :
    (∃ response, game.answerQuery raw ask answer = .ok (response, game)) ∨
      ∃ error, game.answerQuery raw ask answer = .error error ∧
        error ≠ .game .tokensExhausted := by
  rw [answerQuery]
  cases Token.ofClient? raw with
  | none => exact Or.inr ⟨_, rfl, nofun⟩
  | some token =>
      dsimp only
      cases hasked : ask game token with
      | ok result => exact Or.inl ⟨_, rfl⟩
      | error cause =>
          rw [hask token cause hasked]
          exact Or.inr ⟨_, rfl, nofun⟩

theorem answerQuery_error {α : Type} {ask : Game → Token → Except GameError α}
    (hask : ∀ token cause, ask game token = .error cause → cause = .unknownToken)
    {answer : α → Response} (h : game.answerQuery raw ask answer = .error error) :
    error = .invalidToken ∨ error = .game .unknownToken := by
  rw [answerQuery] at h
  cases htoken : Token.ofClient? raw with
  | none =>
      rw [htoken] at h
      exact Or.inl (Except.error.inj h).symm
  | some token =>
      simp only [htoken] at h
      cases hasked : ask game token with
      | ok result =>
          rw [hasked] at h
          cases h
      | error cause =>
          rw [hasked] at h
          rw [← Except.error.inj h, hask token cause hasked]
          exact Or.inr rfl

/-- What a request comes to: the answer and the game after it, or an error. -/
def respond (game : Game) (mode : TickMode) : Request → Except ApiError (Response × Game)
  | .getMaps => .ok (.maps (game.maps.map .ofMap), game)
  | .getMap id =>
    match game.findMap? id with
    | some map => .ok (.map (.ofMap map), game)
    | none => .error (.game (.mapNotFound id))
  | .join mapId name => game.answerJoin mapId name
  | .listPlayers raw =>
    game.answerQuery raw listPlayers fun players => .players (players.map .ofPlayer)
  | .getState raw => game.answerQuery raw state .state
  | .setDirection raw code => game.answerHeading raw code
  | .tick timeDelta => game.answerTick mode timeDelta

/-- A question is answered with the game as it is, or refused for what it asks. -/
theorem respond_query (hgame : game.Consistent) (mode : TickMode)
    (hquery : request.isQuery = true) :
    (∃ response, game.respond mode request = .ok (response, game)) ∨
      ∃ error, game.respond mode request = .error error ∧ error ≠ .game .tokensExhausted := by
  cases request with
  | getMaps => exact Or.inl ⟨_, rfl⟩
  | getMap id =>
      rw [respond]
      cases game.findMap? id with
      | some map => exact Or.inl ⟨_, rfl⟩
      | none => exact Or.inr ⟨_, rfl, nofun⟩
  | listPlayers raw => exact answerQuery_cases (fun _ _ => hgame.listPlayers_error) raw _
  | getState raw => exact answerQuery_cases (fun _ _ => hgame.state_error) raw _
  | join _ _ | setDirection _ _ | tick _ => cases hquery

/-- A request that is answered leads to a game that operations lead to, and none of
them advances the game when a clock does. -/
theorem after_of_respond (hgame : game.Consistent)
    (h : game.respond mode request = .ok (response, next)) :
    ∃ operations, next = game.after operations ∧
      (mode.isPeriodic = true → operations.filterMap Operation.time? = []) := by
  have hasked (hquery : request.isQuery = true) : ∃ operations, next = game.after operations ∧
      (mode.isPeriodic = true → operations.filterMap Operation.time? = []) := by
    rcases respond_query hgame mode hquery with ⟨found, hfound⟩ | ⟨error, herror, -⟩
    · rw [h] at hfound
      exact ⟨[], (Prod.mk.inj (Except.ok.inj hfound)).2, fun _ => rfl⟩
    · rw [h] at herror
      cases herror
  cases request with
  | getMaps | getMap _ | listPlayers _ | getState _ => exact hasked rfl
  | join mapId name =>
      obtain ⟨joined, hjoin⟩ := answerJoin_eq_ok h
      have hperform := perform_join_eq_ok.mpr ⟨joined, hjoin⟩
      exact ⟨[.join mapId name], (next_of_ok hperform).symm, fun _ => rfl⟩
  | setDirection raw code =>
      rw [respond] at h
      rcases answerHeading_cases hgame raw code with
        hanswer | hanswer | hanswer | ⟨token, heading, steered, hset, hanswer⟩ <;>
        rw [h] at hanswer
      · cases hanswer
      · cases hanswer
      · cases hanswer
      · rw [(Prod.mk.inj (Except.ok.inj hanswer)).2]
        have hperform : game.perform (.setHeading token heading) = .ok steered := hset
        exact ⟨[.setHeading token heading], (next_of_ok hperform).symm, fun _ => rfl⟩
  | tick timeDelta =>
      rw [respond] at h
      rcases game.answerTick_cases mode timeDelta with
        hanswer | hanswer | ⟨hmode, n, -, -, hanswer⟩ <;> rw [h] at hanswer
      · cases hanswer
      · cases hanswer
      · refine ⟨[.advance (.ofMilliseconds n)], (Prod.mk.inj (Except.ok.inj hanswer)).2, ?_⟩
        rw [hmode]
        exact nofun

/-- Only a join fails for want of a token. -/
theorem respond_exhausted (hgame : game.Consistent)
    (h : game.respond mode request = .error (.game .tokensExhausted)) :
    game.unusedToken? = none := by
  have hasked (hquery : request.isQuery = true) : game.unusedToken? = none := by
    rcases respond_query hgame mode hquery with ⟨response, hanswer⟩ | ⟨error, herror, hne⟩
    · rw [h] at hanswer
      cases hanswer
    · rw [h] at herror
      exact absurd (Except.error.inj herror).symm hne
  cases request with
  | getMaps | getMap _ | listPlayers _ | getState _ => exact hasked rfl
  | join mapId name =>
      obtain ⟨cause, hjoin, hcause⟩ := answerJoin_eq_error h
      rw [← ApiError.game.inj hcause] at hjoin
      rcases join_error hgame hjoin with ⟨herror, -⟩ | ⟨herror, -⟩ | ⟨-, hnone, -⟩
      · cases herror
      · cases herror
      · exact hnone
  | setDirection raw code =>
      rw [respond] at h
      rcases answerHeading_cases hgame raw code with
        hanswer | hanswer | hanswer | ⟨_, _, _, -, hanswer⟩ <;> rw [h] at hanswer <;> cases hanswer
  | tick timeDelta =>
      rw [respond] at h
      rcases game.answerTick_cases mode timeDelta with
        hanswer | hanswer | ⟨-, _, -, -, hanswer⟩ <;> rw [h] at hanswer <;> cases hanswer

/-- A request that is answered is a join or a step, or it leaves the rosters. -/
theorem respond_cases (hgame : game.Consistent)
    (h : game.respond mode request = .ok (response, next)) :
    (∃ mapId name joined, request = .join mapId name ∧
        game.join mapId name = .ok (joined, next)) ∨
      (∃ timeDelta n, timeDelta.bind (·.natural?) = some n ∧ request = .tick timeDelta ∧
        next = (game.advance (.ofMilliseconds n)).2) ∨
      request.kind ≠ .join ∧ request.kind ≠ .tick ∧ game.SameRosters next := by
  have hasked (hquery : request.isQuery = true) : game.SameRosters next := by
    rcases respond_query hgame mode hquery with ⟨found, hfound⟩ | ⟨error, herror, -⟩
    · rw [h] at hfound
      rw [(Prod.mk.inj (Except.ok.inj hfound)).2]
      exact .refl game
    · rw [h] at herror
      cases herror
  cases request with
  | getMaps | getMap _ | listPlayers _ | getState _ =>
      exact Or.inr (Or.inr ⟨nofun, nofun, hasked rfl⟩)
  | join mapId name =>
      obtain ⟨joined, hjoin⟩ := answerJoin_eq_ok h
      exact Or.inl ⟨mapId, name, joined, rfl, hjoin⟩
  | setDirection raw code =>
      rw [respond] at h
      rcases answerHeading_cases hgame raw code with
        hanswer | hanswer | hanswer | ⟨token, heading, steered, hset, hanswer⟩ <;>
        rw [h] at hanswer
      · cases hanswer
      · cases hanswer
      · cases hanswer
      · rw [(Prod.mk.inj (Except.ok.inj hanswer)).2]
        exact Or.inr (Or.inr ⟨nofun, nofun, sameRosters_setHeading hset⟩)
  | tick timeDelta =>
      rw [respond] at h
      rcases game.answerTick_cases mode timeDelta with
        hanswer | hanswer | ⟨-, n, hlt, rfl, hanswer⟩ <;> rw [h] at hanswer
      · cases hanswer
      · cases hanswer
      · exact Or.inr (Or.inl ⟨_, n, natural?_eq_some.mpr ⟨hlt, rfl⟩, rfl,
          (Prod.mk.inj (Except.ok.inj hanswer)).2⟩)

/-- No request meets an error of the game itself. -/
theorem isInternal_of_respond (hgame : game.Consistent)
    (h : game.respond mode request = .error error) : error.isInternal = false := by
  cases request with
  | getMaps => cases h
  | getMap id =>
      rw [respond] at h
      cases hmap : game.findMap? id with
      | some map => simp [hmap] at h
      | none =>
          simp only [hmap] at h
          rw [← Except.error.inj h]
          rfl
  | listPlayers raw =>
      rcases answerQuery_error (fun _ _ => hgame.listPlayers_error) h with rfl | rfl <;> rfl
  | getState raw =>
      rcases answerQuery_error (fun _ _ => hgame.state_error) h with rfl | rfl <;> rfl
  | join mapId name =>
      obtain ⟨cause, hjoin, rfl⟩ := answerJoin_eq_error h
      rcases join_error hgame hjoin with ⟨rfl, -⟩ | ⟨rfl, -⟩ | ⟨rfl, -⟩ <;> rfl
  | setDirection raw code =>
      rw [respond] at h
      rcases answerHeading_cases hgame raw code with
        hanswer | hanswer | hanswer | ⟨_, _, _, -, hanswer⟩ <;> rw [h] at hanswer <;>
        cases hanswer <;> rfl
  | tick timeDelta =>
      rw [respond] at h
      rcases game.answerTick_cases mode timeDelta with
        hanswer | hanswer | ⟨-, _, -, -, hanswer⟩ <;> rw [h] at hanswer <;> cases hanswer <;> rfl

end Game

end StreetDogs
