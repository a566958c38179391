import AnyCompetition.Shared.Winners

/-!
# The total of the points

Whatever has been finished, lost or overwritten, every table accounts for its finished
pairs: each has given one point to one of its two players, or is tied and has given
none.
-/

namespace AnyCompetition

open PairCounting SquareTable

namespace CompetitionTable

/-- The pair is finished with equal scores. -/
def isTied (table : CompetitionTable) (i j : Nat) : Prop :=
  (table.match? i j).any (fun played =>
    played.isDone && played.scorePlayer1 == played.scorePlayer2) = true

instance (table : CompetitionTable) : DecidableRel table.isTied := fun _ _ =>
  inferInstanceAs (Decidable (_ = true))

variable {players : List User} {table : CompetitionTable} {i j : Nat}

/-- No player has won against itself. -/
theorem WellFormed.not_isWinned_self (wellFormed : table.WellFormed players) (i : Nat) :
    ¬ table.isWinned i i := by
  intro hwon
  cases found : table.match? i i with
  | none => simp [isWinned, found] at hwon
  | some played =>
      have hself := Option.some.inj (found.symm.trans (wellFormed.mirror i i played found))
      have hscores := congrArg Match.scorePlayer1 hself
      have hflag := (wellFormed.ofCell i i played found).flag
      rw [Match.makeMirrorMatch_scorePlayer1] at hscores
      rw [Match.FlagAgrees, hscores] at hflag
      simp [isWinned, found, hflag] at hwon

/-- A player has at most one point for each of the other players. -/
theorem WellFormed.length_wonMatches_lt (wellFormed : table.WellFormed players) {p : Nat}
    (hp : p < players.length) : (table.wonMatches players.length p).length < players.length := by
  have hmem : p ∈ List.range players.length := List.mem_range.mpr hp
  have hstrict : (table.wonMatches players.length p).length <
      (List.range players.length).length :=
    List.length_filter_lt_length_iff_exists.mpr
      ⟨p, hmem, by simpa [isWinned] using wellFormed.not_isWinned_self p⟩
  rwa [List.length_range] at hstrict

/-- A finished pair is won by one of its players, not by both, or it is tied. -/
theorem WellFormed.isDone_cases (wellFormed : table.WellFormed players)
    (hi : i < players.length) (hj : j < players.length)
    (unplayed : ¬ table.isDone i j → ¬ table.isWinned i j ∧ ¬ table.isWinned j i) :
    (table.isDone i j ↔ (table.isWinned i j ∨ table.isWinned j i) ∨ table.isTied i j) ∧
      ¬ ((table.isWinned i j ∨ table.isWinned j i) ∧ table.isTied i j) ∧
      ¬ (table.isWinned i j ∧ table.isWinned j i) := by
  obtain ⟨played, found⟩ := wellFormed.exists_match hi hj
  have hmirror := wellFormed.mirror i j played found
  have hflag := (wellFormed.ofCell i j played found).flag
  rw [Match.FlagAgrees] at hflag
  have hfirst : table.isWinned i j ↔ played.scorePlayer1 > played.scorePlayer2 := by
    simp [isWinned, found, hflag]
  have hsecond : table.isWinned j i ↔ played.scorePlayer2 > played.scorePlayer1 := by
    simp [isWinned, hmirror]
  have htied : table.isTied i j ↔
      played.isDone = true ∧ played.scorePlayer1 = played.scorePlayer2 := by
    simp [isTied, found]
  have hdone : table.isDone i j ↔ played.isDone = true := by simp [isDone, found]
  rw [hfirst, hsecond, hdone] at unplayed
  rw [hfirst, hsecond, htied, hdone]
  cases hplayed : played.isDone with
  | true =>
      refine ⟨⟨fun _ => ?_, fun _ => rfl⟩, ?_, ?_⟩
      · rcases lt_trichotomy played.scorePlayer1 played.scorePlayer2 with hless | hsame | hmore
        · exact Or.inl (Or.inr hless)
        · exact Or.inr ⟨rfl, hsame⟩
        · exact Or.inl (Or.inl hmore)
      · omega
      · omega
  | false =>
      obtain ⟨hnotFirst, hnotSecond⟩ := unplayed (by simp [hplayed])
      simp only [Bool.false_eq_true, false_and, or_false, and_false, not_false_eq_true, true_and,
        false_iff, not_or]
      exact ⟨⟨hnotFirst, hnotSecond⟩, fun both => hnotFirst both.1⟩

end CompetitionTable

namespace Shared

open CompetitionTable GuardedRun

variable {players : List User} {table : CompetitionTable} {finishes : List Finish}

/-- A pair that is not finished is won by nobody. -/
theorem Reachable.not_isWinned_of_not_isDone
    (reachable : Reachable players (.competitionTable table finishes)) {i j : Nat} (hne : i ≠ j)
    (hi : i < players.length) (hj : j < players.length) (hopen : ¬ table.isDone i j) :
    ¬ table.isWinned i j ∧ ¬ table.isWinned j i := by
  rw [reachable.isDone_iff hne hi hj] at hopen
  cases hlast : lastFinish finishes i j with
  | none =>
      exact ⟨reachable.not_isWinned_of_open hne hi hj hlast,
        reachable.not_isWinned_of_open hne.symm hj hi (lastFinish_comm finishes i j ▸ hlast)⟩
  | some finish => exact absurd ⟨finish, hlast⟩ hopen

/-- Every finished pair of a produced table has given one point, or it is tied. -/
theorem Reachable.sum_wonMatches_add_tied
    (reachable : Reachable players (.competitionTable table finishes)) :
    ∑ p ∈ Finset.range players.length, ((table.wonMatches players.length p).length : Int) +
        countPairs players.length table.isTied = countPairs players.length table.isDone := by
  obtain ⟨wellFormed, records⟩ := reachable.sound
  have hcases : ∀ i j, i < players.length → j < players.length → i ≠ j → _ :=
    fun i j hi hj hne => wellFormed.isDone_cases hi hj
      (reachable.not_isWinned_of_not_isDone hne hi hj)
  have hwon := sum_chosen_eq_countPairs (n := players.length)
    (P := fun i j => table.isWinned i j ∨ table.isWinned j i) table.isWinned
    (fun i _ => wellFormed.not_isWinned_self i)
    fun i j hi hj hne => ⟨Iff.rfl, (hcases i j hi hj hne).2.2⟩
  have hsplit := countPairs_add (n := players.length) (R := table.isDone)
    (P := fun i j => table.isWinned i j ∨ table.isWinned j i) (Q := table.isTied)
    (fun i j hi hj hne => (hcases i j hi hj hne).1)
    fun i j hi hj hne => (hcases i j hi hj hne).2.1
  rw [sum_wonMatches, hwon, hsplit, Nat.cast_add]

/--
In every reachable state, in every table that is stored, in flight or shown on a device:
while it is the table of the open competition, every player has a number of points, below
the number of players, and all of them together are as many as the finished pairs that are
not tied.
-/
theorem points_and_ties {ι : Type} [DecidableEq ι] {created : Competition}
    {initial final : System ι} {actions : List (Action ι)} (starts : StartsWith created initial)
    (hrun : run? System.step? initial actions = some final) {table : CompetitionTable}
    (held : Holds final table) :
    ∃ points : Nat → Int,
      (∀ p < created.players.length,
        table.calculatePointsOfPlayer (some table) p = .ok (points p) ∧
          0 ≤ points p ∧ points p < created.players.length) ∧
      ∑ p ∈ Finset.range created.players.length, points p +
          countPairs created.players.length table.isTied =
        countPairs created.players.length table.isDone := by
  have wellFormed := (starts.consistent_of_run hrun).wellFormed_of_holds held
  obtain ⟨finishes, reachable⟩ := starts.reachable_of_holds hrun held
  refine ⟨fun p => (table.wonMatches created.players.length p).length, ?_,
    reachable.sum_wonMatches_add_tied⟩
  intro p hp
  have hlt := wellFormed.length_wonMatches_lt hp
  exact ⟨calculatePointsOfPlayer_eq wellFormed.square wellFormed.square hp,
    Int.natCast_nonneg _, Int.ofNat_lt.mpr hlt⟩

/-- One pair is tied, one is won, and one is open. -/
theorem points_and_ties_three_players :
    let actions : List (Action Unit) :=
      [.choose () 0 1, .finish () 4 4, .choose () 2 0, .finish () 3 1]
    ∃ final table, run? System.step? (opened Unit [.anna, .boris, .vera]) actions = some final ∧
      Holds final table ∧ countPairs 3 table.isDone = 2 ∧ countPairs 3 table.isTied = 1 ∧
      ∃ points : Nat → Int, ∑ p ∈ Finset.range 3, points p + (1 : Nat) = (2 : Nat) := by
  intro actions
  have hcheck : ((run? System.step? (opened Unit [.anna, .boris, .vera]) actions).bind fun final =>
      (final.devices ()).competition.bind Competition.competitionTable).any
      (fun table => countPairs 3 table.isDone = 2 ∧ countPairs 3 table.isTied = 1) = true := by
    decide +kernel
  obtain ⟨table, hfound, hcounts⟩ := (Option.any_eq_true _ _).mp hcheck
  obtain ⟨final, hrun, hrest⟩ := Option.bind_eq_some_iff.mp hfound
  obtain ⟨shown, hshown, htable⟩ := Option.bind_eq_some_iff.mp hrest
  obtain ⟨hdone, htied⟩ := of_decide_eq_true hcounts
  have held : Holds final table := .shown hshown htable
  obtain ⟨points, _, htotal⟩ := points_and_ties (startsWith_three Unit) hrun held
  change ∑ p ∈ Finset.range 3, points p + (countPairs 3 table.isTied : Int) =
    countPairs 3 table.isDone at htotal
  rw [hdone, htied] at htotal
  exact ⟨final, table, hrun, held, hdone, htied, points, htotal⟩

end Shared

end AnyCompetition
