import StreetDogs.Proofs.Registry.Steering
import StreetDogs.Proofs.Server.Requests
import StreetDogs.Proofs.Token.Grammar

/-!
# Tokens lead to their players

A client that sends a token back, in whatever case and bare or in a header, is
taken for the player who got the token when joining, and for nobody else.  A
well-formed token that no join has answered is unknown.
-/

namespace StreetDogs

namespace Game

variable {game next start : Game} {seat : Seat} {player : Player} {token : Token}
  {record : JoinRecord} {p : Token → Prop}

/-- The tokens still to come and the tokens of all players have the property. -/
structure EveryToken (p : Token → Prop) (game : Game) : Prop where
  supply : ∀ index, p (game.tokens.item index)
  players : ∀ place index player, game.playerAt? place index = some player → p player.token

theorem EveryToken.admission {mapId : MapId} {name : String} {map : StreetMap} {place : ℕ}
    {session : Session} {newcomer : Player} (hgame : game.EveryToken p)
    (h : Admission game mapId name next map place session newcomer) : next.EveryToken p := by
  obtain ⟨drawn, -, hyields⟩ := Supply.search_eq_some_iff.mp h.drawn
  obtain ⟨-, -, htoken, hrest⟩ := Supply.yields_succ_iff.mp hyields
  constructor
  · intro index
    rw [hrest]
    exact hgame.supply index
  · intro other index player hplayer
    rcases h.playerAt?_cases hplayer with hold | ⟨-, -, rfl⟩
    · exact hgame.players other index player hold
    · rw [htoken]
      exact hgame.supply _

theorem EveryToken.of_sameRosters (hgame : game.EveryToken p) (h : game.SameRosters next) :
    next.EveryToken p := by
  constructor
  · intro index
    rw [h.tokens]
    exact hgame.supply index
  · intro place index player hplayer
    obtain ⟨old, hold, hentry⟩ := h.exists_player hplayer
    have htoken : player.token = old.token := congrArg (·.2.2) hentry
    rw [htoken]
    exact hgame.players place index old hold

/-- What holds of every token of the supply holds of every token of a player. -/
theorem EveryToken.after (hgame : game.Consistent) (h : game.EveryToken p)
    (operations : List Operation) : (game.after operations).EveryToken p := by
  apply And.right (run_induction (p := fun _ current => current.Consistent ∧
    current.EveryToken p) ⟨hgame, h⟩ _ operations)
  rintro - current operation ⟨hcurrent, htokens⟩
  refine ⟨hcurrent.step operation, ?_⟩
  rcases step_cases hcurrent operation with ⟨_, _, _, _, _, _, -, hadmission, -⟩ | hsame
  · exact htokens.admission hadmission
  · exact htokens.of_sameRosters hsame

/-- The token leads to the player at the seat and to no other player. -/
structure LeadsTo (game : Game) (token : Token) (seat : Seat) (player : Player) : Prop where
  found : game.findByToken? token = some ⟨seat.place, player.id⟩
  alone : ∀ place index other, game.playerAt? place index = some other → other.token = token →
    place = seat.place ∧ index = seat.index
  /-- As long as there are ids for all players of the session. -/
  reached : ∀ session, game.sessions[seat.place]? = some session →
    session.players.length < 2 ^ 32 → session.player? player.id = some player

/-- The token of a join leads to the one who joined. -/
theorem Seats.leadsTo (hgame : game.Consistent) (h : game.Seats record seat player) :
    game.LeadsTo record.answer.token seat player := by
  have htoken : record.answer.token = player.token := by rw [h.answer_eq]
  rw [htoken]
  refine ⟨hgame.findByToken?_eq_some h.player_eq, fun place index other hother hsame => ?_,
    fun session hsession hsmall => ?_⟩
  · exact hgame.tokens place seat.place index seat.index other player hother h.player_eq hsame
  · obtain ⟨found, hfound, hplayer⟩ := playerAt?_eq_some.mp h.player_eq
    obtain rfl : session = found := Option.some.inj (hsession.symm.trans hfound)
    exact Session.player?_eq_some hplayer
      (hgame.toNat_id (List.mem_of_getElem? hsession) hsmall hplayer)

end Game

/-- The request comes with the token as written, and is well formed otherwise. -/
inductive Api.Request.Presents (raw : String) : Api.Request → Prop where
  | listPlayers : Presents raw (.listPlayers raw)
  | getState : Presents raw (.getState raw)
  | setDirection {code : String} {heading : Heading} (h : Heading.ofCode? code = some heading) :
    Presents raw (.setDirection raw code)

theorem Game.respond_unknown {game : Game} {mode : TickMode} {raw : String} {token : Token}
    {request : Api.Request} (htoken : Token.ofClient? raw = some token)
    (hnone : game.findByToken? token = none) (h : request.Presents raw) :
    game.respond mode request = .error (.game .unknownToken) := by
  have hsession : game.sessionOf token = .error .unknownToken := by rw [sessionOf, hnone]
  have hplayers : game.listPlayers token = .error .unknownToken := by
    rw [listPlayers, hsession]
    rfl
  cases h with
  | listPlayers => simp only [respond, answerQuery, htoken, hplayers]
  | getState =>
      have hstate : game.state token = .error .unknownToken := by
        rw [state, hplayers]
        rfl
      simp only [respond, answerQuery, htoken, hstate]
  | setDirection hcode =>
      simp only [respond, answerHeading, htoken, hcode, setHeading, hnone]

/-- The text is what a client may send for the token: its digits in any mix of
cases, bare or in a header. -/
def Token.WrittenAs (token : Token) (raw : String) : Prop :=
  ∃ digits, digits.map Char.toLower = token.text.toList ∧ Writes raw digits

namespace Game

/-- Texts are read as tokens exactly when they consist of 32 hexadecimal digits,
bare or in a header, and then as the digits in lower case; every token made of
bytes is read as itself, and no other bytes make it.  So where tokens are made of
bytes, whatever a client may send for the token of a join is read as this token,
which leads to the player who joined and to nobody else; and a token that no join
has answered is told to be unknown, though it is well formed. -/
theorem credentials_resolve :
    (∀ raw token, Api.parseToken raw = .ok token ↔ ∃ digits,
      Token.IsDigits digits ∧ Token.Writes raw digits ∧ Token.ofDigits digits = token) ∧
    (∀ raw error, Api.parseToken raw = .error error ↔ error = .invalidToken ∧ ∀ digits,
      Token.IsDigits digits → ¬ Token.Writes raw digits) ∧
    (∀ raw token, Api.parseToken raw = .ok token → Api.parseToken token.text = .ok token) ∧
    (∀ bytes, Token.parse? (Token.ofBytes bytes).text = some (Token.ofBytes bytes)) ∧
    Function.Injective Token.ofBytes ∧
    ∀ (maps : List StreetMap) (settings : GameSettings) (entropy : Supply UInt64)
      (tokens : Supply Token) (start : Game),
      Game.new maps settings entropy tokens = .ok start →
      (∀ index, ∃ bytes, tokens.item index = Token.ofBytes bytes) →
      ∀ operations,
        let game := start.after operations
        let records := joinsOf (start.trace operations)
        (∀ record ∈ records, ∀ raw, record.answer.token.WrittenAs raw →
          Api.parseToken raw = .ok record.answer.token ∧
            ∃ seat player, game.Seats record seat player ∧
              game.LeadsTo record.answer.token seat player) ∧
        ∀ raw token, Api.parseToken raw = .ok token →
          (∀ record ∈ records, record.answer.token ≠ token) →
          game.findByToken? token = none ∧
            ∀ (server : Server) (elapsed : Duration) (request : Api.Request),
              server.game = game → request.Presents raw →
                (server.handle elapsed request).1 = .error (.game .unknownToken) := by
  simp -zeta only [Token.parseToken_eq_ok_iff, Token.parseToken_eq_error_iff]
  refine ⟨fun raw token => Token.ofClient?_eq_some_iff,
    fun raw error => and_congr_right fun _ => Token.ofClient?_eq_none_iff,
    fun raw token h => (Token.isNormal_of_ofClient? h).ofClient?_text,
    fun bytes => (Token.isNormal_ofBytes bytes).parse?_text, Token.ofBytes_injective, ?_⟩
  intro maps settings entropy tokens start hnew htokens operations game records
  have hstart := consistent_new hnew
  have hgame : game.Consistent := hstart.after operations
  have hfollows : Follows records game := follows_after hstart (sessions_new hnew) operations
  have hnormal : game.EveryToken Token.IsNormal := by
    apply EveryToken.after hstart
    obtain ⟨mapPlaces, -, rfl⟩ := new_eq_ok hnew
    refine ⟨fun index => ?_, fun place index player hplayer => by simp [playerAt?] at hplayer⟩
    obtain ⟨bytes, hbytes⟩ := htokens index
    rw [hbytes]
    exact Token.isNormal_ofBytes bytes
  refine ⟨fun record hrecord raw hraw => ?_, fun raw token htoken hunknown => ?_⟩
  · obtain ⟨seat, player, hseats⟩ := hfollows.exists_seat hrecord
    have htoken : record.answer.token = player.token := by rw [hseats.answer_eq]
    obtain ⟨digits, hdigits, hwrites⟩ := hraw
    rw [htoken] at hdigits
    rw [htoken]
    have hplayer := hnormal.players seat.place seat.index player hseats.player_eq
    exact ⟨hplayer.ofClient?_eq hdigits hwrites, seat, player, hseats,
      htoken ▸ hseats.leadsTo hgame⟩
  · have hnone := hfollows.findByToken?_eq_none hgame hunknown
    refine ⟨hnone, fun server elapsed request hserver hpresents => ?_⟩
    rw [← hserver] at hgame hnone
    exact (Server.handle_of_error hgame elapsed (respond_unknown htoken hnone hpresents)).1

def withLetters : Game := onThreeRoads.withTokens (Token.counting 0xabcdef)

/-- Rex, who has joined, mixes the cases in a header; a token of nobody is well
formed and unknown. -/
theorem credentials_resolve_mixedCase :
    let game := withLetters.after [.join "town" "Rex"]
    let token := Token.ofNumber 0xabcdef
    (Api.parseToken "Bearer 00000000000000000000000000aBcDeF" = .ok token ∧
      ∃ seat player, game.Seats ⟨"town", "Rex", ⟨token, 0⟩⟩ seat player ∧
        game.LeadsTo token seat player) ∧
      (({ game, mode := .external } : Server).handle ⟨0⟩
        (.setDirection "0123456789ABCDEF0123456789ABCDEF" "U")).1 =
          .error (.game .unknownToken) := by
  intro game token
  have hnew : Game.new [.threeRoads] {} ⟨fun _ => 0, 0⟩ (Token.counting 0xabcdef) =
      .ok withLetters := rfl
  have hbytes : ∀ index, ∃ bytes, (Token.counting 0xabcdef).item index = Token.ofBytes bytes :=
    fun index => ⟨_, rfl⟩
  obtain ⟨-, -, -, -, -, hruns⟩ := credentials_resolve
  obtain ⟨hissued, hunknown⟩ := hruns _ _ _ _ _ hnew hbytes [.join "town" "Rex"]
  have hjoins : joinsOf (withLetters.trace [.join "town" "Rex"]) =
      [⟨"town", "Rex", ⟨token, 0⟩⟩] := by decide +kernel
  rw [hjoins] at hissued hunknown
  have hwritten : token.WrittenAs "Bearer 00000000000000000000000000aBcDeF" :=
    ⟨"00000000000000000000000000aBcDeF".toList, by decide +kernel, Or.inr (by decide +kernel)⟩
  have hread : Api.parseToken "0123456789ABCDEF0123456789ABCDEF" =
      .ok ⟨"0123456789abcdef0123456789abcdef"⟩ := by decide +kernel
  refine ⟨hissued _ (List.mem_singleton_self _) _ hwritten, ?_⟩
  obtain ⟨-, hanswer⟩ := hunknown _ _ hread (by decide +kernel)
  exact hanswer _ _ _ rfl (.setDirection rfl)

end Game

end StreetDogs
