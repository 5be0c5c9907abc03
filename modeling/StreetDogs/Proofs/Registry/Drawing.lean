import StreetDogs.Game.Update
import StreetDogs.Proofs.Registry.Steps
import StreetDogs.Proofs.Token.Grammar

/-!
# Drawing a fresh token

A token is drawn by taking tokens until one comes that no player holds.  Nothing
limits how often that is repeated, but a counter offers different tokens until
it has gone round, so one of them is free as soon as it has offered more than
there are players.
-/

namespace StreetDogs

namespace Supply

variable {α : Type} {accept : α → Bool} {supply rest : Supply α} {draws limit : ℕ} {item : α}

/-- Items are taken, however many it needs, until one is accepted: after so
many draws that item is found, and the supply goes on behind it. -/
inductive Yields (accept : α → Bool) : Supply α → ℕ → α → Supply α → Prop
  | found {supply : Supply α} (h : accept supply.next.1 = true) :
      Yields accept supply 1 supply.next.1 supply.next.2
  | refused {supply rest : Supply α} {draws : ℕ} {item : α} (h : accept supply.next.1 = false)
      (later : Yields accept supply.next.2 draws item rest) :
      Yields accept supply (draws + 1) item rest

theorem item_next_add (supply : Supply α) (index : ℕ) :
    supply.next.2.item (supply.next.2.taken + index) =
      supply.item (supply.taken + (index + 1)) := by
  rw [next, Nat.add_assoc, Nat.add_comm 1 index]

/-- The item that is found is the first one that is accepted. -/
theorem yields_succ_iff :
    supply.Yields accept (draws + 1) item rest ↔
      accept (supply.item (supply.taken + draws)) = true ∧
        (∀ index < draws, accept (supply.item (supply.taken + index)) = false) ∧
          item = supply.item (supply.taken + draws) ∧
            rest = { supply with taken := supply.taken + (draws + 1) } := by
  induction draws generalizing supply with
  | zero =>
      constructor
      · rintro (h | ⟨-, later⟩)
        · exact ⟨h, fun _ hindex => absurd hindex (Nat.not_lt_zero _), rfl, rfl⟩
        · cases later
      · rintro ⟨h, -, rfl, rfl⟩
        exact .found h
  | succ draws ih =>
      have hrest : { supply.next.2 with taken := supply.next.2.taken + (draws + 1) } =
          { supply with taken := supply.taken + (draws + 1 + 1) } := by
        rw [next, Nat.add_assoc, Nat.add_comm 1]
      constructor
      · rintro (- | ⟨hfirst, later⟩)
        obtain ⟨haccept, hearlier, hitem, hlater⟩ := ih.mp later
        rw [item_next_add] at haccept hitem
        refine ⟨haccept, ?_, hitem, hlater.trans hrest⟩
        intro index hindex
        cases index with
        | zero => exact hfirst
        | succ index =>
            rw [← item_next_add]
            exact hearlier index (Nat.lt_of_succ_lt_succ hindex)
      · rintro ⟨haccept, hearlier, hitem, hlater⟩
        refine .refused (hearlier 0 draws.succ_pos) (ih.mpr ⟨?_, ?_, ?_, hlater.trans hrest.symm⟩)
        · rwa [item_next_add]
        · intro index hindex
          rw [item_next_add]
          exact hearlier (index + 1) (Nat.succ_lt_succ hindex)
        · rwa [item_next_add]

/-- A search with a limit finds what is found without one, if the limit allows
as many draws. -/
theorem search_eq_some_iff :
    supply.search accept limit = some (item, rest) ↔
      ∃ refused < limit, supply.Yields accept (refused + 1) item rest := by
  induction limit generalizing supply with
  | zero => exact ⟨fun h => (nomatch h), fun ⟨_, hlt, _⟩ => absurd hlt (Nat.not_lt_zero _)⟩
  | succ limit ih =>
      rw [search]
      dsimp only
      constructor
      · intro h
        split_ifs at h with haccept
        · obtain ⟨rfl, rfl⟩ := Prod.mk.inj (Option.some.inj h)
          exact ⟨0, limit.succ_pos, .found haccept⟩
        · obtain ⟨refused, hrefused, later⟩ := ih.mp h
          exact ⟨refused + 1, Nat.succ_lt_succ hrefused,
            .refused (Bool.eq_false_of_not_eq_true haccept) later⟩
      · rintro ⟨refused, hrefused, haccept | ⟨hrefuse, later⟩⟩
        · rw [if_pos haccept]
        · rw [if_neg (Bool.eq_false_iff.mp hrefuse)]
          cases refused with
          | zero => cases later
          | succ refused => exact ih.mpr ⟨refused, Nat.lt_of_succ_lt_succ hrefused, later⟩

/-- A supply that has an item to accept yields one, no later than that. -/
theorem exists_yields {index : ℕ} (h : accept (supply.item (supply.taken + index)) = true) :
    ∃ refused ≤ index, supply.Yields accept (refused + 1) (supply.item (supply.taken + refused))
      { supply with taken := supply.taken + (refused + 1) } := by
  have hexists : ∃ index, accept (supply.item (supply.taken + index)) = true := ⟨index, h⟩
  refine ⟨Nat.find hexists, Nat.find_min' hexists h,
    yields_succ_iff.mpr ⟨Nat.find_spec hexists, ?_, rfl, rfl⟩⟩
  intro earlier hearlier
  exact Bool.eq_false_of_not_eq_true (Nat.find_min hexists hearlier)

/-- A search that finds nothing has refused as many items as it may take. -/
theorem refused_of_search_eq_none (h : supply.search accept limit = none) {index : ℕ}
    (hindex : index < limit) : accept (supply.item (supply.taken + index)) = false := by
  by_contra haccept
  obtain ⟨refused, hrefused, hyields⟩ := exists_yields (Bool.eq_true_of_not_eq_false haccept)
  have hfound := search_eq_some_iff.mpr ⟨refused, hrefused.trans_lt hindex, hyields⟩
  rw [h] at hfound
  cases hfound

end Supply

/-- The tokens still to come are those of a counter that stands at `c`. -/
def Supply.CountsFrom (supply : Supply Token) (c : BitVec 128) : Prop :=
  ∀ offset, supply.item (supply.taken + offset) = Token.ofNumber (c + BitVec.ofNat 128 offset)

namespace Supply.CountsFrom

variable {supply : Supply Token} {c : BitVec 128}

/-- After some draws a counter stands that much further. -/
theorem draw (h : supply.CountsFrom c) (draws : ℕ) :
    Supply.CountsFrom { supply with taken := supply.taken + draws }
      (c + BitVec.ofNat 128 draws) := by
  intro offset
  change supply.item (supply.taken + draws + offset) = _
  rw [Nat.add_assoc, h, BitVec.add_assoc, BitVec.ofNat_add]

/-- A counter stands where it was started, and goes on from there. -/
theorem counting (start : BitVec 128) : (Token.counting start).CountsFrom start := by
  intro offset
  rw [Token.counting, Nat.zero_add]

end Supply.CountsFrom

/-- A counter does not repeat a token before it has gone round. -/
theorem Token.injOn_offset (c : BitVec 128) :
    Set.InjOn (fun offset => ofNumber (c + BitVec.ofNat 128 offset)) (Set.Iio (2 ^ 128)) := by
  intro left hleft right hright h
  have hoffsets := add_left_cancel (ofNumber_injective h)
  have hnumbers := congrArg BitVec.toNat hoffsets
  rwa [BitVec.toNat_ofNat, BitVec.toNat_ofNat, Nat.mod_eq_of_lt hleft,
    Nat.mod_eq_of_lt hright] at hnumbers

namespace Game

variable {game next : Game} {token : Token} {tokens : Supply Token} {c : BitVec 128}

def heldTokens (game : Game) : List Token :=
  (game.sessions.flatMap (·.players)).map (·.token)

theorem playerCount_eq_sum (game : Game) :
    game.playerCount = (game.sessions.map (·.playerCount)).sum :=
  List.sum_eq_foldl.symm

theorem length_heldTokens (game : Game) : game.heldTokens.length = game.playerCount := by
  rw [heldTokens, List.length_map, List.length_flatMap, playerCount_eq_sum]
  rfl

theorem mem_heldTokens :
    token ∈ game.heldTokens ↔
      ∃ place seat player, game.playerAt? place seat = some player ∧ player.token = token := by
  rw [heldTokens, List.mem_map]
  constructor
  · rintro ⟨player, hplayer, rfl⟩
    obtain ⟨session, hsession, hmem⟩ := List.mem_flatMap.mp hplayer
    obtain ⟨place, hplace⟩ := List.mem_iff_getElem?.mp hsession
    obtain ⟨seat, hseat⟩ := List.mem_iff_getElem?.mp hmem
    exact ⟨place, seat, player, playerAt?_eq_some.mpr ⟨session, hplace, hseat⟩, rfl⟩
  · rintro ⟨place, seat, player, hplayer, rfl⟩
    obtain ⟨session, hplace, hseat⟩ := playerAt?_eq_some.mp hplayer
    exact ⟨player, List.mem_flatMap.mpr
      ⟨session, List.mem_of_getElem? hplace, List.mem_of_getElem? hseat⟩, rfl⟩

/-- The search by token misses no roster. -/
theorem findByToken?_eq_none_iff_not_mem :
    game.findByToken? token = none ↔ token ∉ game.heldTokens := by
  rw [findByToken?_eq_none_iff, mem_heldTokens]
  push Not
  rfl

def unheld (game : Game) (token : Token) : Bool := (game.findByToken? token).isNone

theorem unheld_eq_true_iff : game.unheld token = true ↔ token ∉ game.heldTokens := by
  rw [unheld, Option.isNone_iff_eq_none, findByToken?_eq_none_iff_not_mem]

theorem unusedToken?_eq_search (game : Game) :
    game.unusedToken? = game.tokens.search game.unheld Token.count := rfl

/-- The token that is drawn belongs to nobody. -/
theorem findByToken?_of_unusedToken? (h : game.unusedToken? = some (token, tokens)) :
    game.findByToken? token = none := by
  obtain ⟨refused, -, hyields⟩ := Supply.search_eq_some_iff.mp h
  obtain ⟨haccept, -, rfl, -⟩ := Supply.yields_succ_iff.mp hyields
  exact Option.isNone_iff_eq_none.mp haccept

/-- When no token is left, players hold as many tokens of the supply as there
are tokens. -/
theorem held_of_unusedToken?_eq_none (h : game.unusedToken? = none) {index : ℕ}
    (hindex : index < Token.count) :
    ∃ place seat player, game.playerAt? place seat = some player ∧
      player.token = game.tokens.item (game.tokens.taken + index) := by
  rw [unusedToken?_eq_search] at h
  have hrefused := Supply.refused_of_search_eq_none h hindex
  by_contra hheld
  rw [← mem_heldTokens, ← unheld_eq_true_iff, hrefused] at hheld
  cases hheld

/-- Players can hold at most as many tokens of a counter as there are players. -/
theorem exists_unheld_offset (c : BitVec 128) (hplayers : game.playerCount < 2 ^ 128) :
    ∃ offset ≤ game.playerCount,
      Token.ofNumber (c + BitVec.ofNat 128 offset) ∉ game.heldTokens := by
  by_contra! hheld
  -- Otherwise more different tokens are held than there are players.
  let offered := (List.range (game.playerCount + 1)).map fun offset =>
    Token.ofNumber (c + BitVec.ofNat 128 offset)
  have hnodup : offered.Nodup := by
    refine List.Nodup.map_on ?_ List.nodup_range
    intro left hleft right hright h
    have hbound {offset : ℕ} (hoffset : offset ∈ List.range (game.playerCount + 1)) :
        offset < 2 ^ 128 := (Nat.le_of_lt_succ (List.mem_range.mp hoffset)).trans_lt hplayers
    exact Token.injOn_offset c (hbound hleft) (hbound hright) h
  have hsubset : offered ⊆ game.heldTokens := by
    intro token htoken
    obtain ⟨offset, hoffset, rfl⟩ := List.mem_map.mp htoken
    exact hheld offset (Nat.le_of_lt_succ (List.mem_range.mp hoffset))
  have hlength := (List.subperm_of_subset hnodup hsubset).length_le
  rw [List.length_map, List.length_range, length_heldTokens] at hlength
  omega

/-- What drawing a token comes to when the counter stands at `c` and the first
`refused` tokens it offers are held. -/
structure DrawsFrom (game : Game) (c : BitVec 128) (refused : ℕ) (token : Token) (next : Game) :
    Prop where
  /-- The loop ends with the draw behind the refused ones. -/
  loop : game.tokens.Yields game.unheld (refused + 1) token next.tokens
  few : refused ≤ game.playerCount
  token_eq : token = Token.ofNumber (c + BitVec.ofNat 128 refused)
  free : token ∉ game.heldTokens
  held : ∀ earlier < refused, Token.ofNumber (c + BitVec.ofNat 128 earlier) ∈ game.heldTokens
  counter : next.tokens.CountsFrom (c + BitVec.ofNat 128 (refused + 1))
  others : next = game.withTokens next.tokens

/-- The search that draws a token has room for every loop that a game with
fewer players than there are tokens can run. -/
theorem DrawsFrom.drawToken_eq {refused : ℕ} (h : game.DrawsFrom c refused token next)
    (hplayers : game.playerCount < 2 ^ 128) : Update.drawToken game = .ok token next := by
  have hrefused : refused < Token.count := by
    rw [Token.count, Nat.one_shiftLeft]
    exact h.few.trans_lt hplayers
  have hfound := Supply.search_eq_some_iff.mpr ⟨refused, hrefused, h.loop⟩
  rw [← unusedToken?_eq_search] at hfound
  rw [Update.drawToken, hfound]
  exact congrArg (EStateM.Result.ok token) h.others.symm

/-- The loop that draws a token from a counter ends: within one draw more than
there are players, it finds the first token in the cyclic order of the counter
that nobody holds, and changes nothing but the counter. -/
theorem drawToken_of_counter (hcounter : game.tokens.CountsFrom c)
    (hplayers : game.playerCount < 2 ^ 128) :
    ∃ refused token next, game.DrawsFrom c refused token next ∧
      Update.drawToken game = .ok token next := by
  obtain ⟨offset, hoffset, hfree⟩ := exists_unheld_offset c hplayers
  rw [← hcounter, ← unheld_eq_true_iff] at hfree
  obtain ⟨refused, hrefused, hyields⟩ := Supply.exists_yields hfree
  obtain ⟨haccept, hearlier, -, -⟩ := Supply.yields_succ_iff.mp hyields
  have hdraw : game.DrawsFrom c refused (game.tokens.item (game.tokens.taken + refused))
      (game.withTokens { game.tokens with taken := game.tokens.taken + (refused + 1) }) :=
    { loop := hyields
      few := hrefused.trans hoffset
      token_eq := hcounter refused
      free := unheld_eq_true_iff.mp haccept
      held := by
        intro earlier hlt
        have hunheld := mt unheld_eq_true_iff.mpr (Bool.eq_false_iff.mp (hearlier earlier hlt))
        rwa [not_not, hcounter] at hunheld
      counter := hcounter.draw (refused + 1)
      others := rfl }
  exact ⟨refused, _, _, hdraw, hdraw.drawToken_eq hplayers⟩

/-- Two players hold the greatest token and the least one, and the counter
stands at the greatest again. -/
def atWrap : Game :=
  ((onThreeRoads.withTokens (Token.counting (.allOnes 128))).after
    [.join "town" "Rex", .join "town" "Ada"]).withTokens (Token.counting (.allOnes 128))

theorem drawToken_atWrap :
    atWrap.tokens.CountsFrom (.allOnes 128) ∧ atWrap.playerCount < 2 ^ 128 ∧
      ∃ refused token next, atWrap.DrawsFrom (.allOnes 128) refused token next ∧
        Update.drawToken atWrap = .ok token next :=
  have hcounter := Supply.CountsFrom.counting (.allOnes 128)
  have hplayers : atWrap.playerCount < 2 ^ 128 := by decide +kernel
  ⟨hcounter, hplayers, drawToken_of_counter hcounter hplayers⟩

/-- The two tokens that are held are passed over, across the wrap. -/
example : atWrap.unusedToken?.map (·.1) = some (Token.ofNumber 1) := by decide +kernel

end Game

end StreetDogs
