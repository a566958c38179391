import AnyCompetition.Library.PairCounting
import AnyCompetition.Models.WellFormed

/-!
# Finished pairs

The counter and the flag of a table against the number of its finished pairs.
`finishMatch` raises the counter also for a match that is already done, so the
two go on agreeing exactly when the pair stored was still open.
-/

namespace AnyCompetition

open PairCounting SquareTable

namespace CompetitionTable

/-- The counter and the flag of a table say which pairs are finished. -/
structure Counted (n : Nat) (table : CompetitionTable) : Prop where
  qtyFinishedGames : table.qtyFinishedGames = countPairs n table.isDone
  le_qtyGames : table.qtyFinishedGames ≤ table.qtyGames
  qtyGames : table.qtyGames = (n * (n - 1) / 2 : Nat)
  isCompetitionFinished : table.isCompetitionFinished = true ↔
    ∀ i j, i < n → j < n → i ≠ j → table.isDone i j

variable {players : List User} {table : CompetitionTable} {n : Nat}

/-- Forgetting document ids changes neither the counter nor what it counts. -/
theorem counted_withoutDocId : table.withoutDocId.Counted n ↔ table.Counted n := by
  have hcount : countPairs n table.withoutDocId.isDone = countPairs n table.isDone :=
    countPairs_congr fun i j _ _ _ => isDone_withoutDocId table i j
  constructor
  · rintro ⟨hfinished, hle, hgames, hflag⟩
    simp only [isDone_withoutDocId] at hflag
    exact ⟨hfinished.trans (congrArg Nat.cast hcount), hle, hgames, hflag⟩
  · rintro ⟨hfinished, hle, hgames, hflag⟩
    refine ⟨hfinished.trans (congrArg Nat.cast hcount.symm), hle, hgames, ?_⟩
    simp only [isDone_withoutDocId]
    exact hflag

/-- A new table of at least two players is counted. -/
theorem counted_init (created : init players = .ok table) (two_le : 2 ≤ players.length) :
    table.Counted players.length := by
  have hnone := not_isDone_init created
  have hcount : countPairs players.length table.isDone = 0 := by
    unfold countPairs
    rw [Finset.filter_false_of_mem fun pair _ => hnone pair.1 pair.2, Finset.card_empty]
  have hwellFormed := wellFormed_init created
  have hstart := not_started_init created
  refine ⟨by rw [hstart.1, hcount]; rfl, ?_, ?_, ?_⟩
  · rw [hstart.1, hwellFormed.qtyGames]
    exact Int.natCast_nonneg _
  · rw [hwellFormed.qtyGames, Nat.mul_sub_one]
  · rw [hstart.2]
    constructor
    · intro hfalse
      cases hfalse
    · intro all
      exact absurd (all 0 1 (by omega) (by omega) (by omega)) (hnone 0 1)

/-- Storing a done match finishes its pair and no other. -/
theorem isDone_storeMatch (square : Square n table.cells) {i j : Nat} {played : Match}
    (done : played.isDone = true) (hi : i < n) (hj : j < n) (k l : Nat) :
    (table.storeMatch i j played).isDone k l ↔
      table.isDone k l ∨ (k = i ∧ l = j) ∨ (k = j ∧ l = i) := by
  rw [isDone, match?_storeMatch square played hi hj]
  by_cases hmirrored : k = j ∧ l = i
  · simp [hmirrored, done]
  · by_cases hsame : k = i ∧ l = j
    · rw [if_neg hmirrored, if_pos hsame]
      simp [hsame, done]
    · simp [hmirrored, hsame, isDone]

/-- Storing a done match over a done one finishes no further pair. -/
theorem isDone_storeMatch_of_isDone (wellFormed : table.WellFormed players) {i j : Nat}
    {played : Match} (done : played.isDone = true) (hi : i < players.length)
    (hj : j < players.length) (already : table.isDone i j) (k l : Nat) :
    (table.storeMatch i j played).isDone k l ↔ table.isDone k l := by
  rw [isDone_storeMatch wellFormed.square done hi hj]
  constructor
  · rintro (before | ⟨rfl, rfl⟩ | ⟨rfl, rfl⟩)
    · exact before
    · exact already
    · exact wellFormed.isDone_comm _ _ already
  · exact Or.inl

/-- Both cells of a pair are still done together. -/
theorem isDone_storeMatch_comm (wellFormed : table.WellFormed players) {i j : Nat}
    {played : Match} (done : played.isDone = true) (hi : i < players.length)
    (hj : j < players.length) (k l : Nat) (hdone : (table.storeMatch i j played).isDone k l) :
    (table.storeMatch i j played).isDone l k := by
  rw [isDone_storeMatch wellFormed.square done hi hj] at hdone ⊢
  rcases hdone with before | ⟨rfl, rfl⟩ | ⟨rfl, rfl⟩
  · exact Or.inl (wellFormed.isDone_comm k l before)
  · exact Or.inr (Or.inr ⟨rfl, rfl⟩)
  · exact Or.inr (Or.inl ⟨rfl, rfl⟩)

/-- A counted table stays counted exactly when the match stored was not done in it. -/
theorem counted_storeMatch (wellFormed : table.WellFormed players)
    (counted : table.Counted players.length) {i j : Nat} {played : Match}
    (done : played.isDone = true) (hi : i < players.length) (hj : j < players.length)
    (hne : i ≠ j) :
    (table.storeMatch i j played).Counted players.length ↔ ¬ table.isDone i j := by
  have hadded := isDone_storeMatch wellFormed.square done hi hj
  have hcounter : (table.storeMatch i j played).qtyFinishedGames =
      table.qtyFinishedGames + 1 := rfl
  constructor
  · rintro ⟨hfinished, _, _, _⟩ already
    have hsame : countPairs players.length (table.storeMatch i j played).isDone =
        countPairs players.length table.isDone :=
      countPairs_congr fun k l _ _ _ =>
        isDone_storeMatch_of_isDone wellFormed done hi hj already k l
    rw [hcounter, hsame, counted.qtyFinishedGames] at hfinished
    omega
  · intro hopen
    have hswap : ¬ table.isDone j i := fun hdone => hopen (wellFormed.isDone_comm _ _ hdone)
    have hnext : countPairs players.length (table.storeMatch i j played).isDone =
        countPairs players.length table.isDone + 1 :=
      countPairs_add_one hi hj hne (fun k l _ _ _ => hadded k l) hopen hswap
    have hfinished : (table.storeMatch i j played).qtyFinishedGames =
        countPairs players.length (table.storeMatch i j played).isDone := by
      rw [hcounter, hnext, counted.qtyFinishedGames]
      rfl
    have hle := countPairs_le (n := players.length)
      (P := (table.storeMatch i j played).isDone)
    have hgames := wellFormed.qtyGames
    refine ⟨hfinished, ?_, counted.qtyGames, ?_⟩
    · rw [hfinished]
      change _ ≤ table.qtyGames
      omega
    · have hflag : table.isCompetitionFinished = false :=
        Bool.eq_false_iff.mpr fun hfinished =>
          hopen (counted.isCompetitionFinished.mp hfinished i j hi hj hne)
      have hsymmetric := isDone_storeMatch_comm wellFormed done hi hj
      have hnew : (table.storeMatch i j played).isCompetitionFinished =
          decide ((table.storeMatch i j played).qtyFinishedGames = table.qtyGames) := by
        simp [storeMatch, hflag]
      rw [← countPairs_eq_iff hsymmetric, hnew, decide_eq_true_eq, hfinished, hgames,
        Nat.cast_inj]

end CompetitionTable

end AnyCompetition
