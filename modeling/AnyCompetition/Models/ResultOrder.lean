import AnyCompetition.Models.FinishedPairs
import Mathlib.Data.Sym.Sym2

/-!
# The order of results

Results of different pairs are entered one after the other in a new table.  Each
decides the two cells of its own pair and no other, whichever of the two it is
entered in, so the final table depends only on the results.
-/

namespace AnyCompetition

open PairCounting SquareTable Trap

/-- The result `scorePlayer1 : scorePlayer2` of two different players out of `n`. -/
structure Result (n : Nat) where
  player1 : Fin n
  player2 : Fin n
  ne : player1 ≠ player2
  scorePlayer1 : Int
  scorePlayer2 : Int

namespace Result

variable {n : Nat}

/-- The same result, entered in the cell of the other player. -/
def mirror (result : Result n) : Result n where
  player1 := result.player2
  player2 := result.player1
  ne := result.ne.symm
  scorePlayer1 := result.scorePlayer2
  scorePlayer2 := result.scorePlayer1

def pair (result : Result n) : Sym2 (Fin n) :=
  s(result.player1, result.player2)

/-- The result decides cell `k`, `l` as `a : b`. -/
def Decides (result : Result n) (k l : Nat) (a b : Int) : Prop :=
  (result.player1 = k ∧ result.player2 = l ∧
    result.scorePlayer1 = a ∧ result.scorePlayer2 = b) ∨
  (result.player2 = k ∧ result.player1 = l ∧
    result.scorePlayer2 = a ∧ result.scorePlayer1 = b)

@[simp]
theorem pair_mirror (result : Result n) : result.mirror.pair = result.pair :=
  Sym2.eq_swap

/-- Results that decide a common cell belong to one pair. -/
theorem pair_eq_of_decides {first : Result n} (second : Result n) {a b : Int}
    (decides : first.Decides second.player1 second.player2 a b) :
    first.pair = second.pair := by
  rcases decides with ⟨hfirst, hsecond, _⟩ | ⟨hfirst, hsecond, _⟩
  · rw [pair, Fin.ext hfirst, Fin.ext hsecond, pair]
  · rw [pair, Fin.ext hfirst, Fin.ext hsecond, Sym2.eq_swap, pair]

/-- A result of another pair decides neither cell of this pair. -/
theorem ne_cells_of_decides {earlier result : Result n} (hpair : earlier.pair ≠ result.pair)
    {k l : Nat} {a b : Int} (decides : earlier.Decides k l a b) :
    ¬ (k = result.player1 ∧ l = result.player2) ∧
      ¬ (k = result.player2 ∧ l = result.player1) := by
  constructor
  · rintro ⟨rfl, rfl⟩
    exact hpair (pair_eq_of_decides _ decides)
  · rintro ⟨rfl, rfl⟩
    exact hpair ((pair_eq_of_decides result.mirror decides).trans result.pair_mirror)

/-- A cell that the result does not decide is neither cell of its pair. -/
theorem ne_cells_of_not_decides {result : Result n} {k l : Nat}
    (undecided : ∀ a b, ¬ result.Decides k l a b) :
    ¬ (k = result.player1 ∧ l = result.player2) ∧
      ¬ (k = result.player2 ∧ l = result.player1) := by
  constructor
  · rintro ⟨rfl, rfl⟩
    exact undecided _ _ (Or.inl ⟨rfl, rfl, rfl, rfl⟩)
  · rintro ⟨rfl, rfl⟩
    exact undecided _ _ (Or.inr ⟨rfl, rfl, rfl, rfl⟩)

theorem decides_mirror (result : Result n) (k l : Nat) (a b : Int) :
    result.mirror.Decides k l a b ↔ result.Decides k l a b :=
  or_comm

end Result

namespace CompetitionTable

variable {n : Nat}

/-- Take the cell, enter the scores, store the match. -/
def enter (table : CompetitionTable) (result : Result n) : Except Trap CompetitionTable := do
  let row ← element table.competitionTable (result.player1 : Nat)
  let played ← element row.matchesOfPlayer (result.player2 : Nat)
  table.finishMatch (played.makeMatch result.scorePlayer1 result.scorePlayer2)

def enterAll (table : CompetitionTable) (results : List (Result n)) :
    Except Trap CompetitionTable :=
  results.foldlM enter table

/-- What a table shows once results have been entered in the new one. -/
structure Shows (players : List User) (new : CompetitionTable)
    (results : List (Result players.length)) (table : CompetitionTable) : Prop where
  wellFormed : table.WellFormed players
  counted : table.Counted players.length
  entered : ∀ result ∈ results, ∀ k l a b, result.Decides k l a b →
    table.match? k l = (new.match? k l).map fun played => played.makeMatch a b
  untouched : ∀ k l, (∀ result ∈ results, ∀ a b, ¬ result.Decides k l a b) →
    table.match? k l = new.match? k l

variable {players : List User} {new table : CompetitionTable}

/-- Entering a result stores the match of its cell. -/
theorem enter_eq {result : Result n} {played : Match}
    (found : table.match? result.player1 result.player2 = some played) :
    table.enter result =
      table.finishMatch (played.makeMatch result.scorePlayer1 result.scorePlayer2) := by
  obtain ⟨matchesOfRow, hcells, hplayed⟩ := Option.bind_eq_some_iff.mp found
  rw [cells, List.getElem?_map] at hcells
  obtain ⟨row, hrow, rfl⟩ := Option.map_eq_some_iff.mp hcells
  rw [enter, element_of_getElem? hrow]
  change (element row.matchesOfPlayer _ >>= _) = _
  rw [element_of_getElem? hplayed]
  rfl

/-- A result of a new pair is entered, and the table shows it too. -/
theorem Shows.enter (created : init players = .ok new)
    {results : List (Result players.length)} (shows : Shows players new results table)
    {result : Result players.length} (fresh : result.pair ∉ results.map Result.pair) :
    ∃ next, table.enter result = .ok next ∧ Shows players new (results ++ [result]) next := by
  have hi := result.player1.isLt
  have hj := result.player2.isLt
  have hne : (result.player1 : Nat) ≠ result.player2 := fun heq => result.ne (Fin.ext heq)
  have newWellFormed := wellFormed_init created
  -- no earlier result decides a cell of this pair
  have hother : ∀ earlier ∈ results, ∀ k l a b, earlier.Decides k l a b →
      ¬ (k = result.player1 ∧ l = result.player2) ∧
        ¬ (k = result.player2 ∧ l = result.player1) := by
    intro earlier membership k l a b decides
    have hpair : earlier.pair ≠ result.pair := fun heq =>
      fresh (List.mem_map.mpr ⟨earlier, membership, heq⟩)
    exact Result.ne_cells_of_decides hpair decides
  obtain ⟨played, found⟩ := newWellFormed.exists_match hi hj
  have hcell : table.match? result.player1 result.player2 = some played := by
    rw [← found]
    apply shows.untouched
    intro earlier membership a b decides
    exact (hother earlier membership _ _ a b decides).1 ⟨rfl, rfl⟩
  have hopen : played.isDone = false :=
    Bool.eq_false_iff.mpr fun done =>
      not_isDone_init created _ _ (isDone_of_match found done)
  have ofCell := (newWellFormed.ofCell _ _ played found).makeMatch
    result.scorePlayer1 result.scorePlayer2
  refine ⟨_, (enter_eq hcell).trans (shows.wellFormed.finishMatch ofCell hi hj), ?_⟩
  have hstore := match?_storeMatch shows.wellFormed.square
    (played.makeMatch result.scorePlayer1 result.scorePlayer2) hi hj
  refine ⟨shows.wellFormed.storeMatch ofCell hi hj hne, ?_, ?_, ?_⟩
  · rw [counted_storeMatch shows.wellFormed shows.counted (played.makeMatch_isDone _ _) hi hj
      hne, isDone, hcell]
    simp [hopen]
  · intro entered membership k l a b decides
    rcases List.mem_append.mp membership with earlier | last
    · obtain ⟨hfirst, hsecond⟩ := hother entered earlier k l a b decides
      rw [hstore, if_neg hsecond, if_neg hfirst]
      exact shows.entered entered earlier k l a b decides
    · rw [List.mem_singleton.mp last] at decides
      rcases decides with ⟨rfl, rfl, rfl, rfl⟩ | ⟨rfl, rfl, rfl, rfl⟩
      · rw [hstore, if_neg (by omega), if_pos ⟨rfl, rfl⟩, found, Option.map_some]
      · rw [hstore, if_pos ⟨rfl, rfl⟩, newWellFormed.mirror _ _ played found,
          Option.map_some, Match.makeMirrorMatch_makeMatch]
  · intro k l undecided
    obtain ⟨hfirst, hsecond⟩ := Result.ne_cells_of_not_decides
      (undecided result (List.mem_append_right _ List.mem_cons_self))
    rw [hstore, if_neg hsecond, if_neg hfirst]
    exact shows.untouched k l fun earlier membership =>
      undecided earlier (List.mem_append_left _ membership)

/-- Results of different pairs can be entered one after the other. -/
theorem Shows.enterAll (created : init players = .ok new)
    {results rest : List (Result players.length)} (shows : Shows players new results table)
    (distinct : ((results ++ rest).map Result.pair).Nodup) :
    ∃ final, table.enterAll rest = .ok final ∧ Shows players new (results ++ rest) final := by
  induction rest generalizing results table with
  | nil => exact ⟨table, rfl, by simpa using shows⟩
  | cons result rest ih =>
      have hfresh : result.pair ∉ results.map Result.pair := by
        rw [List.map_append, List.map_cons] at distinct
        intro membership
        exact (List.nodup_append.mp distinct).2.2 _ membership _ List.mem_cons_self rfl
      obtain ⟨next, hnext, hshows⟩ := shows.enter created hfresh
      rw [List.append_cons] at distinct ⊢
      obtain ⟨final, hfinal, hfinalShows⟩ := ih hshows distinct
      refine ⟨final, ?_, hfinalShows⟩
      rw [CompetitionTable.enterAll, List.foldlM_cons, hnext]
      exact hfinal

/-- The new table shows no results. -/
theorem shows_init (created : init players = .ok new) (two_le : 2 ≤ players.length) :
    Shows players new [] new where
  wellFormed := wellFormed_init created
  counted := counted_init created two_le
  entered := by simp
  untouched := fun _ _ _ => rfl

/-- The results shown determine the table. -/
theorem Shows.unique {results others : List (Result players.length)}
    {first second : CompetitionTable} (hfirst : Shows players new results first)
    (hsecond : Shows players new others second)
    (same : ∀ k l a b, (∃ result ∈ results, result.Decides k l a b) ↔
      ∃ result ∈ others, result.Decides k l a b) : first = second := by
  have hmatch : ∀ k l, first.match? k l = second.match? k l := by
    intro k l
    by_cases hdecided : ∃ result ∈ results, ∃ a b, result.Decides k l a b
    · obtain ⟨result, membership, a, b, decides⟩ := hdecided
      obtain ⟨other, hother, hdecides⟩ := (same k l a b).mp ⟨result, membership, decides⟩
      rw [hfirst.entered result membership k l a b decides,
        hsecond.entered other hother k l a b hdecides]
    · rw [hfirst.untouched k l fun result membership a b decides =>
          hdecided ⟨result, membership, a, b, decides⟩,
        hsecond.untouched k l fun other membership a b decides => ?_]
      obtain ⟨result, hresult, hdecides⟩ := (same k l a b).mpr ⟨other, membership, decides⟩
      exact hdecided ⟨result, hresult, a, b, hdecides⟩
  have hdone : ∀ k l, first.isDone k l ↔ second.isDone k l := by
    intro k l
    rw [isDone, isDone, hmatch]
  apply ext_cells
  · exact hfirst.wellFormed.square.ext hsecond.wellFormed.square fun k l _ _ => hmatch k l
  · rw [hfirst.wellFormed.qtyPlayers, hsecond.wellFormed.qtyPlayers]
  · rw [hfirst.wellFormed.qtyGames, hsecond.wellFormed.qtyGames]
  · rw [hfirst.counted.qtyFinishedGames, hsecond.counted.qtyFinishedGames]
    exact congrArg Nat.cast (countPairs_congr fun k l _ _ _ => hdone k l)
  · rw [Bool.eq_iff_iff, hfirst.counted.isCompetitionFinished,
      hsecond.counted.isCompetitionFinished]
    simp only [hdone]

/-- A table is finished when its results contain all pairs. -/
theorem Shows.isCompetitionFinished_iff (created : init players = .ok new)
    {results : List (Result players.length)} (shows : Shows players new results table) :
    table.isCompetitionFinished = true ↔
      ∀ i j : Fin players.length, i ≠ j → ∃ result ∈ results, result.pair = s(i, j) := by
  rw [shows.counted.isCompetitionFinished]
  constructor
  · intro all i j hne
    by_contra hnone
    have hdone := all i j i.isLt j.isLt fun heq => hne (Fin.ext heq)
    rw [isDone, shows.untouched i j ?_] at hdone
    · exact not_isDone_init created i j hdone
    · intro result membership a b decides
      exact hnone ⟨result, membership,
        Result.pair_eq_of_decides ⟨i, j, hne, a, b⟩ decides⟩
  · intro all i j hi hj hne
    obtain ⟨result, membership, hpair⟩ :=
      all ⟨i, hi⟩ ⟨j, hj⟩ fun heq => hne (congrArg Fin.val heq)
    obtain ⟨a, b, decides⟩ : ∃ a b, result.Decides i j a b := by
      rcases Sym2.eq_iff.mp hpair with ⟨hfirst, hsecond⟩ | ⟨hfirst, hsecond⟩
      · exact ⟨_, _, Or.inl ⟨congrArg Fin.val hfirst, congrArg Fin.val hsecond, rfl, rfl⟩⟩
      · exact ⟨_, _, Or.inr ⟨congrArg Fin.val hsecond, congrArg Fin.val hfirst, rfl, rfl⟩⟩
    obtain ⟨played, found⟩ := (wellFormed_init created).exists_match hi hj
    have hcell := shows.entered result membership i j a b decides
    rw [found, Option.map_some] at hcell
    exact isDone_of_match hcell (played.makeMatch_isDone a b)

/-- Results chosen from either side are results of the same pairs and decide the
same cells. -/
theorem sides_agree {results sided : List (Result n)}
    (sides : List.Forall₂ (fun result side => side = result ∨ side = result.mirror)
      results sided) :
    sided.map Result.pair = results.map Result.pair ∧
      ∀ k l a b, (∃ result ∈ results, result.Decides k l a b) ↔
        ∃ side ∈ sided, side.Decides k l a b := by
  induction sides with
  | nil => simp
  | @cons result side results sided hside _ ih =>
      have hpair : side.pair = result.pair := by
        rcases hside with rfl | rfl
        · rfl
        · exact result.pair_mirror
      have hdecides : ∀ k l a b, side.Decides k l a b ↔ result.Decides k l a b := by
        intro k l a b
        rcases hside with rfl | rfl
        · exact Iff.rfl
        · exact result.decides_mirror k l a b
      refine ⟨by rw [List.map_cons, List.map_cons, hpair, ih.1], fun k l a b => ?_⟩
      rw [List.exists_mem_cons_iff, List.exists_mem_cons_iff, hdecides, ih.2]

/--
Results of different pairs give one and the same final table in every order and
from either side, result by result, and that table is finished if and only if
the results contain all pairs.
-/
theorem enterAll_perm_mirror {results sided others : List (Result players.length)}
    (two_le : 2 ≤ players.length) (created : init players = .ok new)
    (distinct : (results.map Result.pair).Nodup)
    (sides : List.Forall₂ (fun result side => side = result ∨ side = result.mirror)
      results sided) (order : sided.Perm others) :
    ∃ final, new.enterAll results = .ok final ∧ new.enterAll others = .ok final ∧
      (final.isCompetitionFinished = true ↔
        ∀ i j : Fin players.length, i ≠ j → ∃ result ∈ results, result.pair = s(i, j)) := by
  obtain ⟨hpairs, hdecides⟩ := sides_agree sides
  have hdistinct : (others.map Result.pair).Nodup := by
    rw [← (order.map Result.pair).nodup_iff, hpairs]
    exact distinct
  have hnew := shows_init created two_le
  obtain ⟨first, hfirst, hfirstShows⟩ := hnew.enterAll created distinct
  obtain ⟨second, hsecond, hsecondShows⟩ := hnew.enterAll created hdistinct
  have hsame : first = second := by
    refine hfirstShows.unique hsecondShows fun k l a b => ?_
    rw [List.nil_append, List.nil_append, hdecides]
    exact ⟨fun ⟨side, membership, decides⟩ => ⟨side, order.mem_iff.mp membership, decides⟩,
      fun ⟨side, membership, decides⟩ => ⟨side, order.mem_iff.mpr membership, decides⟩⟩
  subst hsame
  exact ⟨first, hfirst, hsecond, hfirstShows.isCompetitionFinished_iff created⟩

/-- Two results of three players, in both orders and the second from both sides. -/
theorem enterAll_perm_mirror_three_players :
    ∃ new : CompetitionTable, ∃ results others : List (Result 3),
      results.length = 2 ∧ results ≠ others ∧
      ∃ final, new.enterAll results = .ok final ∧ new.enterAll others = .ok final ∧
        final.isCompetitionFinished = false := by
  let player (name : String) : User :=
    { firstName := name, lastName := name, nick := name }
  let first : Result 3 := ⟨0, 1, by decide, 1, 0⟩
  let second : Result 3 := ⟨1, 2, by decide, 2, 5⟩
  let players := [player "Anna", player "Boris", player "Vera"]
  obtain ⟨new, created⟩ : ∃ new, init players = .ok new := ⟨_, rfl⟩
  have distinct : ([first, second].map Result.pair).Nodup := by decide
  have sides : List.Forall₂ (fun result side => side = result ∨ side = result.mirror)
      [first, second] [first, second.mirror] :=
    .cons (Or.inl rfl) (.cons (Or.inr rfl) .nil)
  obtain ⟨final, hfirst, hsecond, hfinished⟩ :=
    enterAll_perm_mirror (by decide) created distinct sides (.swap _ _ [])
  refine ⟨new, [first, second], [second.mirror, first], rfl, ?_, final, hfirst, hsecond,
    Bool.eq_false_iff.mpr fun finished => ?_⟩
  · intro heq
    exact absurd (congrArg (fun results => results.map Result.scorePlayer1) heq) (by decide)
  · have hmissing := hfinished.mp finished 0 2 (by decide)
    revert hmissing
    decide

end CompetitionTable

end AnyCompetition
