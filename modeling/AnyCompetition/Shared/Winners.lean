import AnyCompetition.Library.PairCounting
import AnyCompetition.Shared.Lineage
import Mathlib.Algebra.BigOperators.Ring.Finset

/-!
# Winners

The winner of a match is named four times: by the announcement of the finish,
by the winning flags of the two mirrored cells, and by the screens that review
the cells.  The points of the players count the winning flags.
-/

namespace AnyCompetition

open PairCounting SquareTable

namespace CompetitionTable

/-- The cell of row `i` against `j` is marked as won by player `i`. -/
def isWinned (table : CompetitionTable) (i j : Nat) : Prop :=
  (table.match? i j).any Match.isWinned = true

instance (table : CompetitionTable) : DecidableRel table.isWinned := fun i j =>
  inferInstanceAs (Decidable ((table.match? i j).any Match.isWinned = true))

/-- The player highlighted in green when cell `i`, `j` is opened for review. -/
def highlighted (table : CompetitionTable) (i j : Nat) : Option Nat :=
  (table.match? i j).bind fun played =>
    match MatchViewController.setupViews { played } with
    | .check _ _ .player1 => some i
    | .check _ _ .player2 => some j
    | .play => none

variable {players : List User} {table : CompetitionTable} {i j : Nat} {played : Match}

/-- The flags of a pair of cells, and what reviewing them highlights, are decided
by the scores of one of the two. -/
theorem winner_of_match (wellFormed : table.WellFormed players)
    (found : table.match? i j = some played) (done : played.isDone = true) :
    (table.isWinned i j ↔ played.scorePlayer1 > played.scorePlayer2) ∧
    (table.isWinned j i ↔ played.scorePlayer2 > played.scorePlayer1) ∧
    table.highlighted i j =
      some (if played.scorePlayer1 > played.scorePlayer2 then i else j) ∧
    table.highlighted j i =
      some (if played.scorePlayer2 > played.scorePlayer1 then j else i) := by
  have hmirror := wellFormed.mirror i j played found
  have hflag := (wellFormed.ofCell i j played found).flag
  refine ⟨?_, ?_, ?_, ?_⟩
  · rw [Match.FlagAgrees] at hflag
    simp [isWinned, found, hflag]
  · simp [isWinned, hmirror]
  · simp only [highlighted, found, Option.bind_some, MatchViewController.setupViews, done,
      if_true]
    by_cases hgreater : played.scorePlayer1 > played.scorePlayer2 <;> simp [hgreater]
  · simp only [highlighted, hmirror, Option.bind_some, MatchViewController.setupViews,
      Match.makeMirrorMatch_isDone, done, if_true, Match.makeMirrorMatch_scorePlayer1,
      Match.makeMirrorMatch_scorePlayer2]
    by_cases hgreater : played.scorePlayer2 > played.scorePlayer1 <;> simp [hgreater]

/-- The points of all players together count the won cells. -/
theorem sum_wonMatches (table : CompetitionTable) (n : Nat) :
    ∑ p ∈ Finset.range n, ((table.wonMatches n p).length : Int) =
      (∑ p ∈ Finset.range n,
        ((Finset.range n).filter fun j => table.isWinned p j).card : Nat) := by
  rw [Nat.cast_sum]
  apply Finset.sum_congr rfl
  intro p _
  congr 1
  rw [wonMatches, ← List.toFinset_card_of_nodup (List.nodup_range.filter _)]
  congr 1
  ext j
  rw [List.mem_toFinset, List.mem_filter, List.mem_range, Finset.mem_filter,
    Finset.mem_range, isWinned]

end CompetitionTable

namespace Shared

open CompetitionTable GuardedRun

/-- The tap stores different scores, and the scores entered name the same winner
as the stored ones. -/
def Finish.Decides (finish : Finish) : Prop :=
  if finish.screen.played.isDone then
    finish.screen.played.scorePlayer1 ≠ finish.screen.played.scorePlayer2 ∧
      (finish.scorePlayer1 > finish.scorePlayer2 ↔
        finish.screen.played.scorePlayer1 > finish.screen.played.scorePlayer2)
  else finish.scorePlayer1 ≠ finish.scorePlayer2

/-- One player has won the pair, and it is the player named in all places. -/
def OneWinner (table : CompetitionTable) (finishes : List Finish) (i j : Nat) : Prop :=
  ∃ winner loser, (winner = i ∧ loser = j ∨ winner = j ∧ loser = i) ∧
    table.isWinned winner loser ∧ ¬ table.isWinned loser winner ∧
    (lastFinish finishes i j).bind Finish.announced = some winner ∧
    table.highlighted i j = some winner ∧ table.highlighted j i = some winner

/-- Every finished pair has one winner, and the points add up to those pairs. -/
structure NamesWinners (n : Nat) (table : CompetitionTable) (finishes : List Finish) :
    Prop where
  winner : ∀ i j, i < n → j < n → i ≠ j → table.isDone i j → OneWinner table finishes i j
  points : ∃ points : Nat → Int,
    (∀ p < n, table.calculatePointsOfPlayer (some table) p = .ok (points p)) ∧
    ∑ p ∈ Finset.range n, points p = countPairs n table.isDone

theorem Finish.announced_eq (finish : Finish) :
    finish.announced =
      some (if finish.scorePlayer1 > finish.scorePlayer2 then finish.i else finish.j) := by
  by_cases hgreater : finish.scorePlayer1 > finish.scorePlayer2 <;>
    simp [announced, after, MatchViewController.finishMatch, MatchViewController.announce,
      hgreater]

/-- The condition on a tap, in terms of what it stores. -/
theorem Finish.decides_iff (finish : Finish) :
    finish.Decides ↔ finish.stored.scorePlayer1 ≠ finish.stored.scorePlayer2 ∧
      (finish.scorePlayer1 > finish.scorePlayer2 ↔
        finish.stored.scorePlayer1 > finish.stored.scorePlayer2) := by
  cases hdone : finish.screen.played.isDone with
  | true =>
      simp [Decides, stored, after, MatchViewController.finishMatch, hdone,
        Match.makeMatch_of_done hdone]
  | false =>
      simp [Decides, stored, after, MatchViewController.finishMatch, hdone,
        Match.makeMatch_of_not_done hdone]

theorem lastFinish_comm (finishes : List Finish) (k l : Nat) :
    lastFinish finishes k l = lastFinish finishes l k := by
  unfold lastFinish
  congr 1
  funext finish
  exact decide_eq_decide.mpr or_comm

theorem OneWinner.symm {table : CompetitionTable} {finishes : List Finish} {i j : Nat}
    (oneWinner : OneWinner table finishes i j) : OneWinner table finishes j i := by
  obtain ⟨winner, loser, hpair, hwon, hlost, hannounced, hfirst, hsecond⟩ := oneWinner
  exact ⟨winner, loser, hpair.symm, hwon, hlost, lastFinish_comm finishes i j ▸ hannounced,
    hsecond, hfirst⟩

variable {players : List User} {table : CompetitionTable} {finishes : List Finish}
  {finish : Finish} {i j : Nat}

/-- A pair is done when one of its finishes is the last. -/
theorem Reachable.isDone_iff
    (reachable : Reachable players (.competitionTable table finishes)) (hne : i ≠ j)
    (hi : i < players.length) (hj : j < players.length) :
    table.isDone i j ↔ ∃ finish, lastFinish finishes i j = some finish := by
  obtain ⟨wellFormed, records⟩ := reachable.sound
  have hcell := records i j hne hi hj
  unfold CellRecords at hcell
  cases hlast : lastFinish finishes i j with
  | none =>
      rw [hlast] at hcell
      obtain ⟨played, found⟩ := wellFormed.exists_match hi hj
      simp [isDone, found, (hcell played found).1]
  | some finish =>
      rw [hlast] at hcell
      obtain ⟨hpair, played, found, hdone, _, _⟩ := hcell
      have hfinished := isDone_of_match found hdone
      refine ⟨fun _ => ⟨finish, rfl⟩, fun _ => ?_⟩
      rcases hpair with ⟨rfl, rfl⟩ | ⟨rfl, rfl⟩
      · exact hfinished
      · exact wellFormed.isDone_comm _ _ hfinished

/-- The last finish of a pair decides whether the pair has one winner. -/
theorem Reachable.oneWinner_iff
    (reachable : Reachable players (.competitionTable table finishes)) (hne : i ≠ j)
    (hi : i < players.length) (hj : j < players.length)
    (last : lastFinish finishes i j = some finish) :
    OneWinner table finishes i j ↔ finish.Decides := by
  obtain ⟨wellFormed, records⟩ := reachable.sound
  have hcell := records i j hne hi hj
  unfold CellRecords at hcell
  rw [last] at hcell
  obtain ⟨hpair, played, found, hdone, hfirst, hsecond⟩ := hcell
  obtain ⟨hwon, hlost, hgreen, hgreenMirror⟩ := winner_of_match wellFormed found hdone
  rw [hfirst, hsecond] at hwon hlost hgreen hgreenMirror
  -- it is enough to look at the pair in the order of its last finish
  suffices horder : lastFinish finishes finish.i finish.j = some finish →
      finish.i ≠ finish.j →
      (OneWinner table finishes finish.i finish.j ↔ finish.Decides) by
    rcases hpair with ⟨rfl, rfl⟩ | ⟨rfl, rfl⟩
    · exact horder last hne
    · rw [← horder (lastFinish_comm finishes _ _ ▸ last) hne.symm]
      exact ⟨OneWinner.symm, OneWinner.symm⟩
  intro hlast hij
  rw [Finish.decides_iff]
  unfold OneWinner
  rw [hlast, Option.bind_some, Finish.announced_eq, hgreen, hgreenMirror]
  constructor
  · rintro ⟨winner, loser, ⟨rfl, rfl⟩ | ⟨rfl, rfl⟩, hwinner, hloser, hannounced, hg, hm⟩
    · rw [hwon] at hwinner
      refine ⟨ne_of_gt hwinner, ⟨fun _ => hwinner, fun _ => ?_⟩⟩
      by_contra hnot
      rw [if_neg hnot] at hannounced
      exact hij (Option.some.inj hannounced).symm
    · rw [hlost] at hwinner
      refine ⟨ne_of_lt hwinner, ⟨fun hgreater => ?_, fun hgreater => ?_⟩⟩
      · rw [if_pos hgreater] at hannounced
        exact absurd (Option.some.inj hannounced) hij
      · exact absurd hgreater (lt_asymm hwinner)
  · rintro ⟨hdifferent, hsame⟩
    rcases lt_or_gt_of_ne hdifferent with hless | hgreater
    · refine ⟨finish.j, finish.i, Or.inr ⟨rfl, rfl⟩, hlost.mpr hless, ?_, ?_, ?_, ?_⟩
      · exact fun won => lt_asymm hless (hwon.mp won)
      · rw [if_neg fun entered => lt_asymm hless (hsame.mp entered)]
      · rw [if_neg (lt_asymm hless)]
      · rw [if_pos hless]
    · refine ⟨finish.i, finish.j, Or.inl ⟨rfl, rfl⟩, hwon.mpr hgreater, ?_, ?_, ?_, ?_⟩
      · exact fun won => lt_asymm hgreater (hlost.mp won)
      · rw [if_pos (hsame.mpr hgreater)]
      · rw [if_pos hgreater]
      · rw [if_neg (lt_asymm hgreater)]

/-- The cells of a pair that no finish has stored are not won. -/
theorem Reachable.not_isWinned_of_open
    (reachable : Reachable players (.competitionTable table finishes)) (hne : i ≠ j)
    (hi : i < players.length) (hj : j < players.length)
    (hnone : lastFinish finishes i j = none) : ¬ table.isWinned i j := by
  obtain ⟨wellFormed, records⟩ := reachable.sound
  have hcell := records i j hne hi hj
  unfold CellRecords at hcell
  rw [hnone] at hcell
  obtain ⟨played, found⟩ := wellFormed.exists_match hi hj
  simp [isWinned, found, (hcell played found).2]

/-- Where every finished pair has one winner, the points add up to those pairs. -/
theorem Reachable.points_of_winner
    (reachable : Reachable players (.competitionTable table finishes))
    (winner : ∀ i j, i < players.length → j < players.length → i ≠ j →
      table.isDone i j → OneWinner table finishes i j) :
    ∃ points : Nat → Int,
      (∀ p < players.length,
        table.calculatePointsOfPlayer (some table) p = .ok (points p)) ∧
      ∑ p ∈ Finset.range players.length, points p =
        countPairs players.length table.isDone := by
  obtain ⟨wellFormed, records⟩ := reachable.sound
  refine ⟨fun p => (table.wonMatches players.length p).length, ?_, ?_⟩
  · intro p hp
    exact calculatePointsOfPlayer_eq wellFormed.square wellFormed.square hp
  rw [sum_wonMatches, sum_chosen_eq_countPairs (P := table.isDone) table.isWinned]
  · intro i hi
    obtain ⟨played, found⟩ := wellFormed.exists_match hi hi
    have hself := Option.some.inj (found.symm.trans (wellFormed.mirror i i played found))
    have hscores := congrArg Match.scorePlayer1 hself
    have hflag := (wellFormed.ofCell i i played found).flag
    rw [Match.makeMirrorMatch_scorePlayer1] at hscores
    rw [Match.FlagAgrees, hscores] at hflag
    simp [isWinned, found, hflag]
  · intro i j hi hj hne
    cases hlast : lastFinish finishes i j with
    | none =>
        have hopen : ¬ table.isDone i j := by
          simp [reachable.isDone_iff hne hi hj, hlast]
        have hfirst := reachable.not_isWinned_of_open hne hi hj hlast
        have hsecond := reachable.not_isWinned_of_open hne.symm hj hi
          (lastFinish_comm finishes i j ▸ hlast)
        simp [hopen, hfirst, hsecond]
    | some finish =>
        have hdone := (reachable.isDone_iff hne hi hj).mpr ⟨finish, hlast⟩
        obtain ⟨first, second, ⟨rfl, rfl⟩ | ⟨rfl, rfl⟩, hwon, hlost, _⟩ :=
          winner i j hi hj hne hdone
        · simp [hdone, hwon, hlost]
        · simp [hdone, hwon, hlost]

/--
In a reachable table every finished pair has exactly one winner, named alike by
the announcement, the flags and both reviews, and the points of the players add
up to the finished pairs, if and only if the last finish of every pair stored
different scores and was entered with scores that name the same winner.
-/
theorem namesWinners_iff
    (reachable : Reachable players (.competitionTable table finishes)) :
    NamesWinners players.length table finishes ↔
      ∀ i j finish, i < players.length → j < players.length → i ≠ j →
        lastFinish finishes i j = some finish → finish.Decides := by
  constructor
  · intro names i j finish hi hj hne hlast
    have hdone := (reachable.isDone_iff hne hi hj).mpr ⟨finish, hlast⟩
    exact (reachable.oneWinner_iff hne hi hj hlast).mp (names.winner i j hi hj hne hdone)
  · intro decides
    have hwinner : ∀ i j, i < players.length → j < players.length → i ≠ j →
        table.isDone i j → OneWinner table finishes i j := by
      intro i j hi hj hne hdone
      obtain ⟨finish, hlast⟩ := (reachable.isDone_iff hne hi hj).mp hdone
      exact (reachable.oneWinner_iff hne hi hj hlast).mpr (decides i j finish hi hj hne hlast)
    exact ⟨hwinner, reachable.points_of_winner hwinner⟩

/-- The only match of two players, finished 3 : 1. -/
theorem namesWinners_iff_two_players :
    ∃ table finishes, Reachable [.anna, .boris] (.competitionTable table finishes) ∧
      table.isDone 0 1 ∧ NamesWinners [User.anna, User.boris].length table finishes := by
  obtain ⟨table, created⟩ : ∃ table, CompetitionTable.init [.anna, .boris] = .ok table :=
    ⟨_, rfl⟩
  have found : table.match? 0 1 = some (Match.init .anna .boris ⟨0, 1⟩) := by
    rw [match?_init created]
    rfl
  have wellFormed := wellFormed_init created
  have hnew := Reachable.create created
  have reachable := hnew.finish (hnew.choose (by decide) found)
    (wellFormed.finishMatch ((wellFormed.ofCell 0 1 _ found).makeMatch 3 1)
      (by decide) (by decide))
  refine ⟨_, _, reachable, ?_, (namesWinners_iff reachable).mpr ?_⟩
  · exact (reachable.isDone_iff (by decide) (by decide) (by decide)).mpr ⟨_, rfl⟩
  · intro i j finish _ _ _ hlast
    rw [List.mem_singleton.mp (List.mem_of_find?_eq_some hlast)]
    exact (by decide : (3 : Int) ≠ 1)

/-- A match finished 0 : 0 is announced for its second player and won by nobody,
and each of its two cells highlights the other player. -/
theorem tie_names_no_winner :
    StartsWith (cup [.anna, .boris]) (opened Unit [.anna, .boris]) ∧
    ∃ final screen shown table,
      run? System.step? (opened Unit [.anna, .boris]) [.choose () 0 1, .finish () 0 0] =
        some final ∧
      (final.devices ()).matchViewController = some screen ∧
      screen.winnedPlayer = some .player2 ∧
      (final.devices ()).competition = some shown ∧
      shown.competitionTable = some table ∧
      table.isDone 0 1 ∧ ¬ table.isWinned 0 1 ∧ ¬ table.isWinned 1 0 ∧
      table.highlighted 0 1 = some 1 ∧ table.highlighted 1 0 = some 0 ∧
      ∃ finishes, Reachable [.anna, .boris] (.competitionTable table finishes) ∧
        ¬ NamesWinners 2 table finishes := by
  have hcheck : ((run? System.step? (opened Unit [.anna, .boris])
      [.choose () 0 1, .finish () 0 0]).bind fun final =>
        (final.devices ()).matchViewController.bind fun screen =>
          (final.devices ()).competition.bind fun shown =>
            shown.competitionTable.map fun table => (screen, table)).any (fun found =>
        found.1.winnedPlayer = some .player2 ∧ found.2.isDone 0 1 ∧
        ¬ found.2.isWinned 0 1 ∧ ¬ found.2.isWinned 1 0 ∧
        found.2.highlighted 0 1 = some 1 ∧ found.2.highlighted 1 0 = some 0) = true := by
    decide +kernel
  obtain ⟨⟨screen, table⟩, hfound, hfacts⟩ := (Option.any_eq_true _ _).mp hcheck
  obtain ⟨final, hfinal, hrest⟩ := Option.bind_eq_some_iff.mp hfound
  obtain ⟨_, hscreen, hrest⟩ := Option.bind_eq_some_iff.mp hrest
  obtain ⟨shown, hshown, hrest⟩ := Option.bind_eq_some_iff.mp hrest
  obtain ⟨_, htable, hpair⟩ := Option.map_eq_some_iff.mp hrest
  cases hpair
  obtain ⟨hwinned, hdone, hfirst, hsecond, hgreen, hgreenMirror⟩ :=
    of_decide_eq_true hfacts
  obtain ⟨finishes, reachable⟩ :=
    (startsWith_two Unit).reachable_of_holds hfinal (.shown hshown htable)
  refine ⟨startsWith_two Unit, final, screen, shown, table, hfinal, hscreen, hwinned, hshown,
    htable, hdone, hfirst, hsecond, hgreen, hgreenMirror, finishes, reachable, ?_⟩
  intro names
  obtain ⟨winner, loser, ⟨rfl, rfl⟩ | ⟨rfl, rfl⟩, hwon, _⟩ :=
    names.winner 0 1 (by decide) (by decide) (by decide) hdone
  · exact hfirst hwon
  · exact hsecond hwon

end Shared

end AnyCompetition
