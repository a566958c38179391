import AnyCompetition.Models.ResultOrder
import AnyCompetition.Models.PointsOfPlayer

/-!
# Standings

What the points are for: a player has as many points as results won.  The table
sees a result in the two cells of its pair only; the standings see the list of
results that was entered, and agree with it in every order.
-/

namespace AnyCompetition

open Trap

namespace Result

variable {n : Nat}

/-- The player with the greater score; a tie has none. -/
def winner (result : Result n) : Option (Fin n) :=
  if result.scorePlayer1 > result.scorePlayer2 then some result.player1
  else if result.scorePlayer2 > result.scorePlayer1 then some result.player2
  else none

/-- The player that a player of the result has played against. -/
def opponent (result : Result n) (player : Fin n) : Fin n :=
  if result.player1 = player then result.player2 else result.player1

/-- A result is won against the other player of its pair. -/
theorem pair_of_winner {result : Result n} {player : Fin n}
    (won : result.winner = some player) : result.pair = s(player, result.opponent player) := by
  unfold winner at won
  split at won
  · cases won
    rw [opponent, if_pos rfl, pair]
  · split at won
    · cases won
      rw [opponent, if_neg result.ne, pair, Sym2.eq_swap]
    · cases won

/-- A cell is decided in favour of its player exactly by the results that this player
has won against the player of the column. -/
theorem winner_iff_decides (result : Result n) (player other : Fin n) :
    (result.winner = some player ∧ result.opponent player = other) ↔
      ∃ a b, result.Decides player other a b ∧ a > b := by
  constructor
  · rintro ⟨won, rfl⟩
    unfold winner at won
    split at won
    · rename_i hgreater
      cases won
      exact ⟨_, _, Or.inl ⟨rfl, by rw [opponent, if_pos rfl], rfl, rfl⟩, hgreater⟩
    · split at won
      · rename_i hgreater
        cases won
        exact ⟨_, _, Or.inr ⟨rfl, by rw [opponent, if_neg result.ne], rfl, rfl⟩, hgreater⟩
      · cases won
  · rintro ⟨a, b, ⟨hfirst, hsecond, rfl, rfl⟩ | ⟨hsecond, hfirst, rfl, rfl⟩, hgreater⟩
    · rw [← Fin.ext hfirst, ← Fin.ext hsecond, winner, if_pos hgreater, opponent, if_pos rfl]
      exact ⟨rfl, rfl⟩
    · rw [← Fin.ext hfirst, ← Fin.ext hsecond, winner, if_neg (lt_asymm hgreater),
        if_pos hgreater, opponent, if_neg result.ne]
      exact ⟨rfl, rfl⟩

end Result

/-- The results that a player has won. -/
def resultsWon {n : Nat} (results : List (Result n)) (player : Fin n) : List (Result n) :=
  results.filter fun result => result.winner = some player

namespace CompetitionTable

variable {players : List User} {new table : CompetitionTable}

/-- The cell of a player against another one is won exactly when a result says so. -/
theorem Shows.isWinned_iff (created : init players = .ok new)
    {results : List (Result players.length)} (shows : Shows players new results table)
    (player other : Fin players.length) :
    (table.match? player other).any Match.isWinned = true ↔
      ∃ result ∈ resultsWon results player, result.opponent player = other := by
  have newWellFormed := wellFormed_init created
  obtain ⟨played, found⟩ := newWellFormed.exists_match player.isLt other.isLt
  have hopen : played.isDone = false :=
    Bool.eq_false_iff.mpr fun done =>
      not_isDone_init created _ _ (isDone_of_match found done)
  have hwon : ∀ result : Result players.length,
      (result ∈ resultsWon results player ∧ result.opponent player = other) ↔
        result ∈ results ∧ ∃ a b, result.Decides player other a b ∧ a > b := by
    intro result
    rw [← result.winner_iff_decides, resultsWon, List.mem_filter, decide_eq_true_eq, and_assoc]
  simp only [hwon]
  constructor
  · intro hflag
    by_contra hnone
    have hcell : table.match? player other = some played := by
      rw [← found]
      apply shows.untouched
      intro result membership a b decides
      have hentered := shows.entered result membership player other a b decides
      rw [found, Option.map_some, Match.makeMatch_of_not_done hopen] at hentered
      rw [hentered, Option.any_some, decide_eq_true_eq] at hflag
      exact hnone ⟨result, membership, a, b, decides, hflag⟩
    rw [hcell, Option.any_some] at hflag
    rw [CompetitionTable.match?_init created] at found
    obtain ⟨_, _, hmap⟩ := Option.bind_eq_some_iff.mp found
    obtain ⟨_, _, rfl⟩ := Option.map_eq_some_iff.mp hmap
    cases hflag
  · rintro ⟨result, membership, a, b, decides, hgreater⟩
    rw [shows.entered result membership player other a b decides, found, Option.map_some,
      Match.makeMatch_of_not_done hopen, Option.any_some, decide_eq_true_eq]
    exact hgreater

/-- The columns won by a player are the opponents in the results won. -/
theorem Shows.wonMatches_perm (created : init players = .ok new)
    {results : List (Result players.length)} (shows : Shows players new results table)
    (distinct : (results.map Result.pair).Nodup) (player : Fin players.length) :
    (table.wonMatches players.length player).Perm
      ((resultsWon results player).map fun result => (result.opponent player : Nat)) := by
  refine (List.perm_ext_iff_of_nodup (List.nodup_range.filter _) ?_).mpr ?_
  · have hpairs : ((resultsWon results player).map Result.pair).Nodup :=
      (List.filter_sublist.map Result.pair).nodup distinct
    have hopponents : (resultsWon results player).map Result.pair =
        ((resultsWon results player).map fun result => result.opponent player).map
          fun other => s(player, other) := by
      rw [List.map_map]
      apply List.map_congr_left
      intro result membership
      exact Result.pair_of_winner (of_decide_eq_true (List.mem_filter.mp membership).2)
    rw [hopponents] at hpairs
    have hnodup := (hpairs.of_map _).map Fin.val_injective
    rwa [List.map_map] at hnodup
  · intro column
    rw [List.mem_filter, List.mem_range, List.mem_map]
    constructor
    · rintro ⟨hcolumn, hflag⟩
      obtain ⟨result, membership, hother⟩ :=
        (shows.isWinned_iff created player ⟨column, hcolumn⟩).mp hflag
      exact ⟨result, membership, congrArg Fin.val hother⟩
    · rintro ⟨result, membership, rfl⟩
      exact ⟨(result.opponent player).isLt,
        (shows.isWinned_iff created player _).mpr ⟨result, membership, rfl⟩⟩

/--
Any list of results of different pairs, each entered from the cell of either player,
gives a table in which the points of every player are the number of results in the
list that this player has won, while the competition that is open has this table.
-/
theorem points_eq_resultsWon {results : List (Result players.length)}
    (two_le : 2 ≤ players.length) (created : init players = .ok new)
    (distinct : (results.map Result.pair).Nodup) :
    ∃ final, new.enterAll results = .ok final ∧
      ∀ player : Fin players.length,
        final.calculatePointsOfPlayer (some final) (player : Nat) =
          .ok ((resultsWon results player).length) := by
  obtain ⟨final, hfinal, hshows⟩ := (shows_init created two_le).enterAll created distinct
  refine ⟨final, hfinal, fun player => ?_⟩
  have square := hshows.wellFormed.square
  rw [calculatePointsOfPlayer_eq square square player.isLt,
    (hshows.wonMatches_perm created distinct player).length_eq, List.length_map,
    List.nil_append]

/-- One result won from the second column, one tie, and no result of the third pair. -/
theorem points_eq_resultsWon_three_players :
    ∃ new final : CompetitionTable, ∃ results : List (Result 3),
      results.length = 2 ∧ new.enterAll results = .ok final ∧
      final.calculatePointsOfPlayer (some final) ((1 : Fin 3) : Nat) = .ok 1 ∧
      final.calculatePointsOfPlayer (some final) ((2 : Fin 3) : Nat) = .ok 0 := by
  let player (name : String) : User :=
    { firstName := name, lastName := name, nick := name }
  let players := [player "Anna", player "Boris", player "Vera"]
  let lost : Result 3 := ⟨0, 1, by decide, 2, 5⟩
  let tied : Result 3 := ⟨2, 1, by decide, 4, 4⟩
  obtain ⟨new, created⟩ : ∃ new, init players = .ok new := ⟨_, rfl⟩
  have distinct : (([lost, tied] : List (Result players.length)).map Result.pair).Nodup := by
    decide
  obtain ⟨final, hfinal, hpoints⟩ := points_eq_resultsWon (by decide) created distinct
  exact ⟨new, final, [lost, tied], rfl, hfinal, hpoints 1, hpoints 2⟩

end CompetitionTable

end AnyCompetition
