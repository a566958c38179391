import AnyCompetition.Models.ResultOrder
import AnyCompetition.Shared.FinishedGames

/-!
# Devices that take turns

Whole-document writes are safe while every device finishes only what it has received:
no write is in flight, its copy has the table of the stored version, and the pair is
still open there.  Such a run is a sequence of results entered one by one in one table,
whichever devices entered them and whatever was opened, delivered or lost in between.
-/

namespace AnyCompetition

open SquareTable

namespace Match.OfCell

variable {players : List User} {i j : Nat} {first second : Match}

/-- What a cell leaves open is whether its match is done, and the scores. -/
theorem withoutDocId_eq (hfirst : first.OfCell players i j)
    (hsecond : second.OfCell players i j) (done : first.isDone = second.isDone)
    (score1 : first.scorePlayer1 = second.scorePlayer1)
    (score2 : first.scorePlayer2 = second.scorePlayer2) :
    first.withoutDocId = second.withoutDocId := by
  have hplayer1 := Option.some.inj (hfirst.player1.symm.trans hsecond.player1)
  have hplayer2 := Option.some.inj (hfirst.player2.symm.trans hsecond.player2)
  have hindex := hfirst.matchIndex.trans hsecond.matchIndex.symm
  have hwon : first.isWinned = second.isWinned := by
    rw [hfirst.flag, hsecond.flag, score1, score2]
  cases first
  cases second
  simp only [Match.withoutDocId, Match.mk.injEq] at *
  exact ⟨hplayer1, hplayer2, done, hwon, score1, score2, hindex⟩

end Match.OfCell

/-- A result decides the cells of its pair. -/
theorem Result.decides_of_pair_eq {n : Nat} {earlier result : Result n}
    (hpair : earlier.pair = result.pair) :
    ∃ a b, earlier.Decides result.player1 result.player2 a b := by
  rcases Sym2.eq_iff.mp hpair with ⟨hfirst, hsecond⟩ | ⟨hfirst, hsecond⟩
  · exact ⟨_, _, Or.inl ⟨congrArg Fin.val hfirst, congrArg Fin.val hsecond, rfl, rfl⟩⟩
  · exact ⟨_, _, Or.inr ⟨congrArg Fin.val hsecond, congrArg Fin.val hfirst, rfl, rfl⟩⟩

namespace CompetitionTable

variable {players : List User} {table : CompetitionTable} {i j : Nat} {played : Match}

@[simp]
theorem cells_withoutDocId (table : CompetitionTable) :
    table.withoutDocId.cells = table.cells.map (List.map Match.withoutDocId) := by
  simp [cells, withoutDocId, Function.comp_def]

@[simp]
theorem withoutDocId_withoutDocId (table : CompetitionTable) :
    table.withoutDocId.withoutDocId = table.withoutDocId := by
  simp [withoutDocId, Match.withoutDocId, Function.comp_def]

/-- Storing a match and forgetting document ids can be exchanged. -/
theorem withoutDocId_storeMatch (wellFormed : table.WellFormed players)
    (hi : i < players.length) (hj : j < players.length) :
    (table.storeMatch i j played).withoutDocId =
      table.withoutDocId.storeMatch i j played.withoutDocId := by
  refine ext_cells ?_ rfl rfl rfl rfl
  have square := wellFormed.square
  have hsquare := wellFormed.withoutDocId.square
  refine Square.ext (n := players.length) ?_ (square_storeMatch hsquare i j _) ?_
  · rw [cells_withoutDocId]
    exact (square_storeMatch square i j played).map _
  · intro k l _ _
    change match? _ k l = match? _ k l
    rw [match?_withoutDocId, match?_storeMatch square played hi hj,
      match?_storeMatch hsquare _ hi hj, match?_withoutDocId]
    split
    · rfl
    · split <;> rfl

theorem enterAll_concat {n : Nat} (table : CompetitionTable) (results : List (Result n))
    (result : Result n) :
    table.enterAll (results ++ [result]) =
      table.enterAll results >>= fun next => next.enter result := by
  simp [enterAll, List.foldlM_append]

/-- Entering a result of an open pair of a well-formed table stores its match. -/
theorem enter_eq_storeMatch (wellFormed : table.WellFormed players)
    (result : Result players.length)
    (found : table.match? result.player1 result.player2 = some played) :
    table.enter result = .ok (table.storeMatch result.player1 result.player2
      (played.makeMatch result.scorePlayer1 result.scorePlayer2)) := by
  have ofCell := (wellFormed.ofCell _ _ played found).makeMatch result.scorePlayer1
    result.scorePlayer2
  exact (enter_eq found).trans
    (wellFormed.finishMatch ofCell result.player1.isLt result.player2.isLt)

end CompetitionTable

namespace Shared

open Json GuardedRun CompetitionViewController

variable {ι : Type} [DecidableEq ι] {created : Competition} {s t : System ι}

/-- The copy of the device has the table of the stored version, up to document ids. -/
def UpToDate (s : System ι) (device : ι) : Prop :=
  ∀ shown table data current, (s.devices device).competition = some shown →
    shown.competitionTable = some table → s.stored = some data →
    HoldsIn s.documentID data current → table.withoutDocId = current.withoutDocId

/-- The finish button is tapped only when no write is in flight, on a device that is up
to date, and for a pair that is still open. -/
def TakesTurn (s : System ι) : Action ι → Prop
  | .finish device a b =>
      s.inFlight = [] ∧ UpToDate s device ∧ FinishesOpenPair s (.finish device a b)
  | _ => True

/-- The table is the one that a single program gives after entering the results. -/
def EnteredOneByOne (created : Competition) (results : List (Result created.players.length))
    (table : CompetitionTable) : Prop :=
  ∃ new sequential, CompetitionTable.init created.players = .ok new ∧
    new.enterAll results = .ok sequential ∧ table = sequential.withoutDocId

/-- Version `k` of the document has the table after the first `k` results. -/
structure History (created : Competition) (documentID : String) (versions : List Fields)
    (results : List (Result created.players.length)) : Prop where
  distinct : (results.map Result.pair).Nodup
  length_eq : versions.length = results.length + 1
  holdsIn : ∀ k data, versions[k]? = some data →
    ∃ table, HoldsIn documentID data table ∧ EnteredOneByOne created (results.take k) table

/-- The results committed, and at most one write that adds a result of another pair. -/
structure Serial (created : Competition) (s : System ι) : Prop where
  two_le : 2 ≤ created.players.length
  consistent : Consistent created s
  history : ∃ results, History created s.documentID s.versions results ∧
    (s.inFlight = [] ∨ ∃ write result table, s.inFlight = [write] ∧
      ((results ++ [result]).map Result.pair).Nodup ∧
      HoldsIn s.documentID write.document.data table ∧
      EnteredOneByOne created (results ++ [result]) table)

namespace EnteredOneByOne

variable {results : List (Result created.players.length)} {table : CompetitionTable}

/-- A done match of an open pair, stored in a copy of the table, is one more result. -/
theorem concat (entered : EnteredOneByOne created results table)
    (two_le : 2 ≤ created.players.length) (distinct : (results.map Result.pair).Nodup)
    {copy : CompetitionTable} (wellFormed : copy.WellFormed created.players)
    (same : copy.withoutDocId = table) {i j : Nat} {played : Match}
    (ofCell : played.OfCell created.players i j) (done : played.isDone = true) (hne : i ≠ j)
    (hi : i < created.players.length) (hj : j < created.players.length)
    (hopen : ¬ copy.isDone i j) :
    ∃ result, ((results ++ [result]).map Result.pair).Nodup ∧
      EnteredOneByOne created (results ++ [result])
        (copy.storeMatch i j played).withoutDocId := by
  obtain ⟨new, sequential, hnew, henter, rfl⟩ := entered
  let result : Result created.players.length :=
    ⟨⟨i, hi⟩, ⟨j, hj⟩, fun heq => hne (congrArg Fin.val heq), played.scorePlayer1,
      played.scorePlayer2⟩
  obtain ⟨_, hfinal, shows⟩ :=
    (CompetitionTable.shows_init hnew two_le).enterAll hnew distinct
  rw [henter] at hfinal
  cases hfinal
  rw [List.nil_append] at shows
  have hclosed : ¬ sequential.isDone i j := by
    rw [← CompetitionTable.isDone_withoutDocId, ← same, CompetitionTable.isDone_withoutDocId]
    exact hopen
  obtain ⟨cell, hcell⟩ := shows.wellFormed.exists_match hi hj
  have hcellOpen : cell.isDone = false :=
    Bool.eq_false_iff.mpr fun hdone => hclosed (CompetitionTable.isDone_of_match hcell hdone)
  -- the pair has no result yet, or its cell would be done
  have hfresh : result.pair ∉ results.map Result.pair := by
    intro membership
    obtain ⟨earlier, hearlier, hpair⟩ := List.mem_map.mp membership
    obtain ⟨a, b, decides⟩ := Result.decides_of_pair_eq hpair
    obtain ⟨first, hfirst⟩ := (CompetitionTable.wellFormed_init hnew).exists_match hi hj
    have hentered := shows.entered earlier hearlier i j a b decides
    rw [hfirst, Option.map_some] at hentered
    exact hclosed (CompetitionTable.isDone_of_match hentered (first.makeMatch_isDone a b))
  refine ⟨result, ?_, new, sequential.storeMatch i j
    (cell.makeMatch played.scorePlayer1 played.scorePlayer2), hnew, ?_, ?_⟩
  · rw [List.map_append, List.map_singleton]
    exact List.nodup_append.mpr ⟨distinct, List.nodup_singleton _, fun pair hpair other hother =>
      by rintro rfl; exact hfresh (List.mem_singleton.mp hother ▸ hpair)⟩
  · rw [CompetitionTable.enterAll_concat, henter]
    exact CompetitionTable.enter_eq_storeMatch shows.wellFormed result hcell
  · have hmatch : played.withoutDocId =
        (cell.makeMatch played.scorePlayer1 played.scorePlayer2).withoutDocId := by
      refine ofCell.withoutDocId_eq
        ((shows.wellFormed.ofCell i j cell hcell).makeMatch _ _) ?_ ?_ ?_
      · rw [done, Match.makeMatch_isDone]
      · rw [Match.makeMatch_of_not_done hcellOpen]
      · rw [Match.makeMatch_of_not_done hcellOpen]
    rw [CompetitionTable.withoutDocId_storeMatch wellFormed hi hj, same, hmatch,
      CompetitionTable.withoutDocId_storeMatch shows.wellFormed hi hj]

end EnteredOneByOne

namespace History

variable {documentID : String} {versions : List Fields}
  {results : List (Result created.players.length)}

/-- The last version has the table after all results. -/
theorem getLast? (history : History created documentID versions results) :
    ∃ data table, versions.getLast? = some data ∧ HoldsIn documentID data table ∧
      EnteredOneByOne created results table := by
  have hlast : versions.getLast? = versions[results.length]? := by
    rw [List.getLast?_eq_getElem?, history.length_eq, Nat.add_sub_cancel]
  obtain ⟨data, hdata⟩ : ∃ data, versions[results.length]? = some data :=
    ⟨_, List.getElem?_eq_getElem (by rw [history.length_eq]; exact Nat.lt_succ_self _)⟩
  obtain ⟨table, holds, entered⟩ := history.holdsIn _ data hdata
  rw [List.take_length] at entered
  exact ⟨data, table, hlast.trans hdata, holds, entered⟩

/-- A committed version adds its result. -/
theorem concat (history : History created documentID versions results)
    {result : Result created.players.length} {data : Fields} {table : CompetitionTable}
    (distinct : ((results ++ [result]).map Result.pair).Nodup)
    (holds : HoldsIn documentID data table)
    (entered : EnteredOneByOne created (results ++ [result]) table) :
    History created documentID (versions ++ [data]) (results ++ [result]) := by
  refine ⟨distinct, by simp [history.length_eq], ?_⟩
  intro k found hfound
  have hlength := history.length_eq
  by_cases hk : k < versions.length
  · rw [List.getElem?_append_left hk] at hfound
    obtain ⟨before, hbefore, hentered⟩ := history.holdsIn k found hfound
    rw [List.take_append_of_le_length (by omega)]
    exact ⟨before, hbefore, hentered⟩
  · have hlast : k = versions.length := by
      have hbound := (List.getElem?_eq_some_iff.mp hfound).1
      rw [List.length_append, List.length_singleton] at hbound
      omega
    subst hlast
    rw [List.getElem?_concat_length] at hfound
    cases hfound
    rw [List.take_of_length_le (by simp [hlength])]
    exact ⟨table, holds, entered⟩

end History

/-- A step that takes its turn keeps the run serial. -/
theorem Serial.step (serial : Serial created s) {action : Action ι}
    (guard : TakesTurn s action) (hstep : s.step? action = some t) : Serial created t := by
  refine ⟨serial.two_le, serial.consistent.step hstep, ?_⟩
  obtain ⟨results, history, pending⟩ := serial.history
  cases serial.consistent.stepped hstep with
  | choose => exact ⟨results, history, pending⟩
  | deliver => exact ⟨results, history, pending⟩
  | @finish device a b screen shown table i j data finishing =>
      obtain ⟨hempty, upToDate, hopenPair⟩ := guard
      rw [finishing.finishesOpenPair_iff] at hopenPair
      obtain ⟨hne, hi, hj, ofCell⟩ := finishing.openCell
      obtain ⟨last, current, hlast, hcurrent, entered⟩ := history.getLast?
      have hsame : table.withoutDocId = current := by
        obtain ⟨_, sequential, _, _, rfl⟩ := id entered
        rw [upToDate shown table last _ finishing.shown_eq finishing.table_eq hlast hcurrent,
          CompetitionTable.withoutDocId_withoutDocId]
      obtain ⟨result, hdistinct, hentered⟩ := entered.concat serial.two_le history.distinct
        finishing.wellFormed hsame (ofCell.makeMatch a b) (screen.played.makeMatch_isDone a b)
        hne hi hj hopenPair
      have hwrite : (s.afterFinish device a b screen shown table i j data).inFlight =
          [⟨device, (s.devices device).snapshots, ⟨s.documentID, data⟩⟩] := by
        change s.inFlight ++ [_] = _
        rw [hempty, List.nil_append]
      exact ⟨results, history, Or.inr ⟨_, result, _, hwrite, hdistinct,
        ⟨_, finishing.data_eq, rfl⟩, hentered⟩⟩
  | @commit index write hwrite =>
      rcases pending with hempty | ⟨only, result, table, hsingle, hdistinct, holds, entered⟩
      · rw [hempty] at hwrite
        cases hwrite
      · rw [hsingle, List.getElem?_singleton] at hwrite
        split at hwrite
        · rename_i hindex
          cases hwrite
          subst hindex
          refine ⟨results ++ [result], history.concat hdistinct holds entered, Or.inl ?_⟩
          dsimp only
          rw [hsingle]
          rfl
        · cases hwrite
  | @fail index write hwrite =>
      rcases pending with hempty | ⟨only, result, table, hsingle, hdistinct, holds, entered⟩
      · rw [hempty] at hwrite
        cases hwrite
      · rw [hsingle, List.getElem?_singleton] at hwrite
        split at hwrite
        · rename_i hindex
          subst hindex
          refine ⟨results, history, Or.inl ?_⟩
          dsimp only
          rw [hsingle]
          rfl
        · cases hwrite

omit [DecidableEq ι] in
/-- A copy that is the stored version read back is up to date. -/
theorem upToDate_of_decode {device : ι}
    (same : (s.devices device).competition = s.stored.bind fun data =>
      Database.decodeCompetition ⟨s.documentID, data⟩) : UpToDate s device := by
  rintro shown table data current hshown htable hdata ⟨version, hdecode, hcurrent⟩
  rw [hshown, hdata, Option.bind_some, hdecode] at same
  cases same
  rw [htable] at hcurrent
  cases hcurrent
  rfl

omit [DecidableEq ι] in
theorem StartsWith.serial (starts : StartsWith created s) : Serial created s := by
  refine ⟨starts.two_le, starts.consistent, [], ?_, ?_⟩
  · obtain ⟨data, first, new, _, _, hnew, hfirst, hdecode, hs⟩ := starts.initial
    rw [hs]
    refine ⟨List.nodup_nil, rfl, ?_⟩
    intro k found hfound
    have hdata : found = data := List.mem_singleton.mp (List.mem_of_getElem? hfound)
    subst hdata
    exact ⟨_, ⟨first, hdecode, hfirst⟩, new, new, hnew, by simp [CompetitionTable.enterAll, pure,
      Except.pure], rfl⟩
  · obtain ⟨_, _, _, _, _, _, _, _, hs⟩ := starts.initial
    rw [hs]
    exact Or.inl rfl

/--
In a run whose devices take turns the document is a sequential program: for some results
of different pairs, version `k` of the document has the table that one program gives
after entering the first `k` of them one by one in the new table.
-/
theorem serial_runs_are_sequential {initial final : System ι} {actions : List (Action ι)}
    (starts : StartsWith created initial)
    (turns : Along System.step? TakesTurn initial actions)
    (hrun : run? System.step? initial actions = some final) :
    ∃ results : List (Result created.players.length),
      (results.map Result.pair).Nodup ∧ final.versions.length = results.length + 1 ∧
      ∀ k data, final.versions[k]? = some data →
        ∃ new sequential stored, CompetitionTable.init created.players = .ok new ∧
          new.enterAll (results.take k) = .ok sequential ∧
          Database.decodeCompetition ⟨final.documentID, data⟩ = some stored ∧
          stored.competitionTable = some sequential.withoutDocId := by
  have serial : Serial created final :=
    (throughout_of_along (P := Serial created)
      (fun serial guard hstep => serial.step guard hstep) starts.serial turns).last hrun
  obtain ⟨results, history, _⟩ := serial.history
  refine ⟨results, history.distinct, history.length_eq, fun k data hdata => ?_⟩
  obtain ⟨_, ⟨stored, hdecode, htable⟩, new, sequential, hnew, henter, rfl⟩ :=
    history.holdsIn k data hdata
  exact ⟨new, sequential, stored, hnew, henter, hdecode, htable⟩

/-- Two devices finish two matches, the second one after it has received the first. -/
theorem serial_runs_are_sequential_two_devices :
    let actions : List (Action Bool) :=
      [.choose true 0 1, .finish true 2 1, .commit 0, .deliver false 1, .choose false 2 1,
       .finish false 0 3, .commit 0]
    ∃ final, run? System.step? (opened Bool [.anna, .boris, .vera]) actions = some final ∧
      final.versions.length = 3 ∧
      ∃ results : List (Result 3), (results.map Result.pair).Nodup ∧ results.length = 2 := by
  intro actions
  have turns : Along System.step? TakesTurn (opened Bool [.anna, .boris, .vera]) actions := by
    refine .cons rfl trivial (.cons rfl ⟨rfl, upToDate_of_decode rfl, ?_⟩ (.cons rfl trivial
      (.cons rfl trivial (.cons rfl trivial (.cons rfl ⟨rfl, upToDate_of_decode rfl, ?_⟩
        (.cons rfl trivial trivial))))))
    · rintro screen shown table ⟨⟩ ⟨⟩ ⟨⟩
      decide +kernel
    · rintro screen shown table ⟨⟩ ⟨⟩ ⟨⟩
      decide +kernel
  have hcheck : (run? System.step? (opened Bool [.anna, .boris, .vera]) actions).any
      (fun final => final.versions.length = 3) = true := by
    decide +kernel
  obtain ⟨final, hrun, hversions⟩ := (Option.any_eq_true _ _).mp hcheck
  obtain ⟨results, hdistinct, hlength, _⟩ :=
    serial_runs_are_sequential (startsWith_three Bool) turns hrun
  have hthree := of_decide_eq_true hversions
  exact ⟨final, hrun, hthree, results, hdistinct,
    Nat.succ.inj (hlength.symm.trans hthree)⟩

end Shared

end AnyCompetition
