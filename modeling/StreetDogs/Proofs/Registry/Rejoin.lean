import StreetDogs.Proofs.Registry.History
import StreetDogs.Proofs.Registry.InPlace
import StreetDogs.Proofs.Registry.Players

/-!
# Joining again

Once a join has succeeded, joining again under the same name looks the player
up and changes nothing, neither the supplies nor the rosters.  So joins of that
kind can be left out of a run: all other answers and the game at the end stay.
-/

namespace StreetDogs

inductive Answer where
  | join (outcome : Except GameError Joined)
  | setHeading (outcome : Except GameError Unit)
  | advance (report : AdvanceReport)
  | sessionOf (outcome : Except GameError Session)
  | listPlayers (outcome : Except GameError (List Player))
  | state (outcome : Except GameError (List (PlayerId × DogSnapshot)))

namespace Game

variable {game start : Game} {operations : List Operation} {marks : List Bool}
  {record : JoinRecord}

def answer (game : Game) : Operation → Answer
  | .join mapId name => .join ((game.join mapId name).map (·.1))
  | .setHeading token heading => .setHeading ((game.setHeading token heading).map fun _ => ())
  | .advance time => .advance (game.advance time).1
  | .sessionOf token => .sessionOf (game.sessionOf token)
  | .listPlayers token => .listPlayers (game.listPlayers token)
  | .state token => .state (game.state token)

def answers (game : Game) (operations : List Operation) : List Answer :=
  (game.trace operations).map fun (game, operation) => game.answer operation

theorem answers_snoc (game : Game) (operations : List Operation) (operation : Operation) :
    game.answers (operations ++ [operation]) =
      game.answers operations ++ [(game.after operations).answer operation] := by
  rw [answers, trace_snoc, List.map_append, answers]
  rfl

theorem length_answers (game : Game) (operations : List Operation) :
    (game.answers operations).length = operations.length := by
  induction operations using List.reverseRecOn with
  | nil => rfl
  | append_singleton operations operation ih =>
      rw [answers_snoc, List.length_append, List.length_append, ih]
      rfl

/-- A join that has succeeded in a run was made under a name. -/
private theorem name_ne_of_mem_joinsOf {trace : List (Game × Operation)}
    (h : record ∈ joinsOf trace) : record.name ≠ "" := by
  obtain ⟨⟨game, operation⟩, -, hrecord⟩ := List.mem_filterMap.mp h
  cases operation with
  | join mapId name =>
      rw [joinRecord?] at hrecord
      cases hjoin : game.join mapId name with
      | error error => simp [hjoin] at hrecord
      | ok answer =>
          simp only [hjoin, Option.some.injEq] at hrecord
          rw [← hrecord]
          rintro rfl
          rw [join_empty] at hjoin
          cases hjoin
  | _ => cases hrecord

/-- A player who has joined is found under the map and name of the join, with
the token and id answered. -/
theorem Follows.exists_playerOn? {records : List JoinRecord} (hgame : game.Consistent)
    (h : Follows records game) (hrecord : record ∈ records) :
    ∃ player, game.playerOn? record.mapId record.name = some player ∧
      record.answer = ⟨player.token, player.id⟩ := by
  obtain ⟨place, seat, session, player, hsession, hmapId, hplayer, hname, hanswer⟩ :=
    h.answers record hrecord
  refine ⟨player, hgame.playerOn?_eq_some.mpr ⟨place, seat, ?_, hplayer, hname⟩, hanswer⟩
  rw [hsession, Option.map_some, hmapId]

/-- After a join has succeeded, the same join answers the same and changes
nothing. -/
theorem join_again (hstart : start.Consistent) (hempty : start.sessions = [])
    (hrecord : record ∈ joinsOf (start.trace operations)) :
    (start.after operations).join record.mapId record.name =
      .ok (record.answer, start.after operations) := by
  have hfollows := follows_after hstart hempty operations
  obtain ⟨player, hplayer, hanswer⟩ :=
    hfollows.exists_playerOn? (hstart.after operations) hrecord
  rw [hanswer]
  exact join_of_known (hstart.after operations) (name_ne_of_mem_joinsOf hrecord) hplayer

/-! ## Leaving joins out -/

def marked {α : Type} (marks : List Bool) (entries : List α) : List α :=
  ((entries.zip marks).filter (·.2)).map (·.1)

theorem marked_snoc {α : Type} {entries : List α} (h : entries.length = marks.length) (entry : α)
    (mark : Bool) : marked (marks ++ [mark]) (entries ++ [entry]) =
      marked marks entries ++ if mark then [entry] else [] := by
  rw [marked, List.zip_append h, List.filter_append, List.map_append, marked]
  cases mark <;> rfl

/-- The marks leave out operations of a run that join players who have joined
before. -/
inductive OmitsRejoins (start : Game) : List Operation → List Bool → Prop where
  | nil : OmitsRejoins start [] []
  | keep {operations : List Operation} {marks : List Bool} (operation : Operation)
      (before : OmitsRejoins start operations marks) :
      OmitsRejoins start (operations ++ [operation]) (marks ++ [true])
  | leave {operations : List Operation} {marks : List Bool} (record : JoinRecord)
      (before : OmitsRejoins start operations marks)
      (joined : record ∈ joinsOf (start.trace operations)) :
      OmitsRejoins start (operations ++ [.join record.mapId record.name]) (marks ++ [false])

theorem OmitsRejoins.length_eq (h : OmitsRejoins start operations marks) :
    operations.length = marks.length := by
  induction h with
  | nil => rfl
  | keep operation before ih => rw [List.length_append, List.length_append, ih]; rfl
  | leave record before joined ih => rw [List.length_append, List.length_append, ih]; rfl

/-- Without the joins left out a run comes to the same game, by the same
answers. -/
theorem OmitsRejoins.same (hstart : start.Consistent) (hempty : start.sessions = [])
    (h : OmitsRejoins start operations marks) :
    start.after (marked marks operations) = start.after operations ∧
      start.answers (marked marks operations) = marked marks (start.answers operations) := by
  -- Induction on the marks: a mark decides about the last operation, which both
  -- runs meet in the same game.
  induction h with
  | nil => exact ⟨rfl, rfl⟩
  | @keep operations marks operation before ih =>
      obtain ⟨hafter, hanswers⟩ := ih
      have hlength := before.length_eq
      rw [marked_snoc hlength, if_pos rfl, after_append, after_append, hafter, answers_snoc,
        answers_snoc, hafter, hanswers, marked_snoc ((length_answers _ _).trans hlength),
        if_pos rfl]
      exact ⟨rfl, rfl⟩
  | @leave operations marks record before joined ih =>
      obtain ⟨hafter, hanswers⟩ := ih
      have hlength := before.length_eq
      have hagain : (start.after operations).next (.join record.mapId record.name) =
          start.after operations := by
        apply next_of_ok
        rw [perform, join_again hstart hempty joined]
        rfl
      rw [marked_snoc hlength, if_neg Bool.false_ne_true, List.append_nil, after_append, hafter,
        answers_snoc, hanswers, marked_snoc ((length_answers _ _).trans hlength),
        if_neg Bool.false_ne_true, List.append_nil]
      exact ⟨hagain.symm, rfl⟩

/-- Joining again is a lookup: it answers as the first time and changes
nothing, also when it is made step by step, and runs do not depend on it. -/
theorem rejoin_lookup {maps : List StreetMap} {settings : GameSettings}
    {entropy : Supply UInt64} {tokens : Supply Token}
    (hnew : Game.new maps settings entropy tokens = .ok start) (operations : List Operation) :
    (∀ record ∈ joinsOf (start.trace operations),
      (start.after operations).join record.mapId record.name =
          .ok (record.answer, start.after operations) ∧
        Update.join record.mapId record.name (start.after operations) =
          .ok record.answer (start.after operations)) ∧
      ∀ marks, OmitsRejoins start operations marks →
        start.after (marked marks operations) = start.after operations ∧
          start.answers (marked marks operations) = marked marks (start.answers operations) := by
  have hstart := consistent_new hnew
  have hempty := sessions_new hnew
  refine ⟨fun record hrecord => ?_, fun marks h => h.same hstart hempty⟩
  have hagain := join_again hstart hempty hrecord
  obtain ⟨hagrees, -⟩ :=
    Update.join_agrees (hstart.after operations) record.mapId record.name
  exact ⟨hagain, Update.outcome_eq_ok.mp (hagrees.trans hagain)⟩

/-- Rex joins, drives off and joins again before Ada comes; the second join of
Rex can be left out. -/
theorem rejoin_lookup_twice :
    let start := onThreeRoads
    let before := [.join "town" "Rex", .setHeading (Token.ofNumber 0) .east]
    let operations := before ++ [.join "town" "Rex"] ++ [.join "town" "Ada"]
    let marks := [true, true, false, true]
    ((start.after operations).join "town" "Rex" =
        .ok (⟨Token.ofNumber 0, 0⟩, start.after operations) ∧
      Update.join "town" "Rex" (start.after operations) =
        .ok ⟨Token.ofNumber 0, 0⟩ (start.after operations)) ∧
      start.after (marked marks operations) = start.after operations ∧
        start.answers (marked marks operations) = marked marks (start.answers operations) := by
  intro start before operations marks
  let record : JoinRecord := ⟨"town", "Rex", ⟨Token.ofNumber 0, 0⟩⟩
  have hbefore : OmitsRejoins start before [true, true] := .keep _ (.keep _ .nil)
  have hjoined : record ∈ joinsOf (start.trace before) := by decide +kernel
  have homits : OmitsRejoins start operations marks := .keep _ (.leave record hbefore hjoined)
  have hrecord : record ∈ joinsOf (start.trace operations) := by decide +kernel
  obtain ⟨hagain, hsame⟩ := rejoin_lookup new_onThreeRoads operations
  exact ⟨hagain record hrecord, hsame marks homits⟩

end Game

end StreetDogs
