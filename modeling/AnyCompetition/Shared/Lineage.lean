import AnyCompetition.Shared.HeldTables

/-!
# The finishes behind a table

A table is produced from the new one by finishes and by reading back.  The
screen of a finish may have been opened from any version of the table, and its
button may have been tapped before.  What a cell shows is decided by the last
finish of its pair.
-/

namespace AnyCompetition.Shared

open SquareTable GuardedRun

/-- A tap on the finish button of a screen opened from cell `i`, `j`, with the
scores entered. -/
structure Finish where
  i : Nat
  j : Nat
  screen : MatchViewController
  scorePlayer1 : Int
  scorePlayer2 : Int

namespace Finish

/-- The screen after the tap. -/
def after (finish : Finish) : MatchViewController :=
  finish.screen.finishMatch finish.scorePlayer1 finish.scorePlayer2

/-- The match handed to the delegate. -/
def stored (finish : Finish) : Match :=
  finish.after.played

/-- The number of the player announced as the winner. -/
def announced (finish : Finish) : Option Nat :=
  finish.after.winnedPlayer.map fun
    | .player1 => finish.i
    | .player2 => finish.j

def OfPair (finish : Finish) (k l : Nat) : Prop :=
  (finish.i = k ∧ finish.j = l) ∨ (finish.i = l ∧ finish.j = k)

instance (finish : Finish) (k l : Nat) : Decidable (finish.OfPair k l) :=
  inferInstanceAs (Decidable (_ ∨ _))

end Finish

/-- The last finish of a pair; the list has the latest finish first. -/
def lastFinish (finishes : List Finish) (k l : Nat) : Option Finish :=
  finishes.find? fun finish => decide (finish.OfPair k l)

/-- What devices produce: a table with the finishes stored in it, the latest
first, or the screen of a match. -/
inductive Produced where
  | competitionTable (table : CompetitionTable) (finishes : List Finish)
  | matchScreen (i j : Nat) (screen : MatchViewController)

inductive Reachable (players : List User) : Produced → Prop where
  | create {table : CompetitionTable} (created : CompetitionTable.init players = .ok table) :
      Reachable players (.competitionTable table [])
  | readBack {table : CompetitionTable} {finishes : List Finish}
      (written : Reachable players (.competitionTable table finishes)) :
      Reachable players (.competitionTable table.withoutDocId finishes)
  | choose {table : CompetitionTable} {finishes : List Finish} {i j : Nat} {played : Match}
      (shown : Reachable players (.competitionTable table finishes)) (hne : i ≠ j)
      (found : table.match? i j = some played) :
      Reachable players (.matchScreen i j { played })
  | tap {i j : Nat} {screen : MatchViewController} (a b : Int)
      (shown : Reachable players (.matchScreen i j screen)) :
      Reachable players (.matchScreen i j (screen.finishMatch a b))
  | finish {table next : CompetitionTable} {finishes : List Finish} {i j : Nat}
      {screen : MatchViewController} {a b : Int}
      (shown : Reachable players (.competitionTable table finishes))
      (onScreen : Reachable players (.matchScreen i j screen))
      (finished : table.finishMatch (screen.finishMatch a b).played = .ok next) :
      Reachable players (.competitionTable next (⟨i, j, screen, a, b⟩ :: finishes))

variable {players : List User}

/-- A cell shows the match stored by the last finish of its pair, and is open
when there is none. -/
def CellRecords (table : CompetitionTable) (finishes : List Finish) (k l : Nat) : Prop :=
  match lastFinish finishes k l with
  | none => ∀ played, table.match? k l = some played →
      played.isDone = false ∧ played.isWinned = false
  | some finish => finish.OfPair k l ∧ ∃ played,
      table.match? finish.i finish.j = some played ∧ played.isDone = true ∧
      played.scorePlayer1 = finish.stored.scorePlayer1 ∧
      played.scorePlayer2 = finish.stored.scorePlayer2

/-- What holds of everything that devices produce. -/
def Produced.Sound (players : List User) : Produced → Prop
  | .competitionTable table finishes => table.WellFormed players ∧
      ∀ k l, k ≠ l → k < players.length → l < players.length → CellRecords table finishes k l
  | .matchScreen i j screen => i ≠ j ∧ i < players.length ∧ j < players.length ∧
      screen.played.OfCell players i j

theorem cellRecords_init {table : CompetitionTable}
    (created : CompetitionTable.init players = .ok table) (k l : Nat) :
    CellRecords table [] k l := by
  intro played found
  rw [CompetitionTable.match?_init created] at found
  obtain ⟨player, _, hmap⟩ := Option.bind_eq_some_iff.mp found
  obtain ⟨opponent, _, rfl⟩ := Option.map_eq_some_iff.mp hmap
  exact ⟨rfl, rfl⟩

theorem cellRecords_withoutDocId {table : CompetitionTable} {finishes : List Finish}
    {k l : Nat} (records : CellRecords table finishes k l) :
    CellRecords table.withoutDocId finishes k l := by
  unfold CellRecords at *
  cases hlast : lastFinish finishes k l with
  | none =>
      rw [hlast] at records
      intro played found
      rw [CompetitionTable.match?_withoutDocId] at found
      obtain ⟨source, hsource, rfl⟩ := Option.map_eq_some_iff.mp found
      exact records source hsource
  | some finish =>
      rw [hlast] at records
      obtain ⟨hpair, played, found, hdone, hfirst, hsecond⟩ := records
      refine ⟨hpair, played.withoutDocId, ?_, hdone, hfirst, hsecond⟩
      rw [CompetitionTable.match?_withoutDocId, found, Option.map_some]

/-- A finish decides the cells of its own pair and leaves the others alone. -/
theorem cellRecords_storeMatch {table : CompetitionTable} {finishes : List Finish}
    (finish : Finish) {k l : Nat} (wellFormed : table.WellFormed players)
    (hi : finish.i < players.length) (hj : finish.j < players.length)
    (hne : finish.i ≠ finish.j) (records : CellRecords table finishes k l) :
    CellRecords (table.storeMatch finish.i finish.j finish.stored) (finish :: finishes)
      k l := by
  have hcell := CompetitionTable.match?_storeMatch wellFormed.square finish.stored hi hj
  unfold CellRecords at *
  by_cases hpair : finish.OfPair k l
  · have hlast : lastFinish (finish :: finishes) k l = some finish := by
      simp [lastFinish, hpair]
    rw [hlast]
    refine ⟨hpair, finish.stored, ?_, finish.screen.played.makeMatch_isDone _ _, rfl, rfl⟩
    rw [hcell, if_neg (by omega), if_pos ⟨rfl, rfl⟩]
  · have hlast : lastFinish (finish :: finishes) k l = lastFinish finishes k l := by
      simp [lastFinish, hpair]
    rw [hlast]
    unfold Finish.OfPair at hpair
    cases hbefore : lastFinish finishes k l with
    | none =>
        rw [hbefore] at records
        intro played found
        rw [hcell, if_neg (by omega), if_neg (by omega)] at found
        exact records played found
    | some last =>
        rw [hbefore] at records
        obtain ⟨hlastPair, played, found, hdone⟩ := records
        refine ⟨hlastPair, played, ?_, hdone⟩
        unfold Finish.OfPair at hlastPair
        rw [hcell, if_neg (by omega), if_neg (by omega)]
        exact found

/-- Everything that devices produce is sound. -/
theorem Reachable.sound {produced : Produced} (reachable : Reachable players produced) :
    produced.Sound players := by
  induction reachable with
  | create created =>
      exact ⟨CompetitionTable.wellFormed_init created,
        fun k l _ _ _ => cellRecords_init created k l⟩
  | readBack _ ih =>
      exact ⟨ih.1.withoutDocId,
        fun k l hne hk hl => cellRecords_withoutDocId (ih.2 k l hne hk hl)⟩
  | choose _ hne found ih =>
      obtain ⟨hi, hj⟩ := ih.1.lt_of_match found
      exact ⟨hne, hi, hj, ih.1.ofCell _ _ _ found⟩
  | tap a b _ ih =>
      obtain ⟨hne, hi, hj, ofCell⟩ := ih
      exact ⟨hne, hi, hj, ofCell.makeMatch a b⟩
  | @finish table next finishes i j screen a b _ _ finished ihTable ihScreen =>
      obtain ⟨wellFormed, records⟩ := ihTable
      obtain ⟨hij, hi, hj, ofCell⟩ := ihScreen
      have hstore : next = table.storeMatch i j (screen.played.makeMatch a b) :=
        Except.ok.inj (finished.symm.trans
          (wellFormed.finishMatch (ofCell.makeMatch a b) hi hj))
      rw [hstore]
      refine ⟨wellFormed.storeMatch (ofCell.makeMatch a b) hi hj hij, ?_⟩
      intro k l hne hk hl
      exact cellRecords_storeMatch ⟨i, j, screen, a, b⟩ wellFormed hi hj hij
        (records k l hne hk hl)

/-! ## The system produces reachable tables -/

section System

variable {ι : Type} [DecidableEq ι] {created : Competition} {s t : System ι}

/-- Every table held and every open screen has been produced. -/
structure Traced (created : Competition) (s : System ι) : Prop where
  consistent : Consistent created s
  tables : Everywhere
    (fun table => ∃ finishes, Reachable created.players (.competitionTable table finishes)) s
  screens : ∀ device screen, (s.devices device).matchViewController = some screen →
    ∃ i j, Reachable created.players (.matchScreen i j screen)

/-- The cell of an open screen is that of its match. -/
theorem Reachable.eq_of_openCell {i j k l : Nat} {screen : MatchViewController}
    (reachable : Reachable created.players (.matchScreen i j screen))
    (openCell : OpenCell created screen k l) : i = k ∧ j = l := by
  obtain ⟨_, _, _, ofCell⟩ := reachable.sound
  have hindex := ofCell.matchIndex.symm.trans openCell.2.2.2.matchIndex
  simp only [MatchIndex.mk.injEq] at hindex
  omega

/-- A change of one device brings no screen but its own. -/
theorem Traced.screens_setDevice (traced : Traced created s) {device : ι} {next : Device}
    (new : ∀ screen, next.matchViewController = some screen →
      ∃ i j, Reachable created.players (.matchScreen i j screen)) :
    ∀ other screen,
      ((s.setDevice device next).devices other).matchViewController = some screen →
        ∃ i j, Reachable created.players (.matchScreen i j screen) :=
  System.forall_setDevice (P := fun _ next => ∀ screen, next.matchViewController = some screen →
    ∃ i j, Reachable created.players (.matchScreen i j screen)) new traced.screens

theorem Traced.step (traced : Traced created s) {action : Action ι}
    (hstep : s.step? action = some t) : Traced created t := by
  have stepped := traced.consistent.stepped hstep
  refine ⟨traced.consistent.step hstep, ?_, ?_⟩
  · apply stepped.everywhere traced.tables
    intro device a b screen shown table i j data _ finishing
    obtain ⟨finishes, htable⟩ := traced.tables table
      (.shown finishing.shown_eq finishing.table_eq)
    obtain ⟨k, l, hscreen⟩ := traced.screens device screen finishing.screen_eq
    obtain ⟨rfl, rfl⟩ := hscreen.eq_of_openCell finishing.openCell
    obtain ⟨_, hi, hj, ofCell⟩ := finishing.openCell
    have hnew := Reachable.finish (a := a) (b := b) htable hscreen
      (finishing.wellFormed.finishMatch (ofCell.makeMatch a b) hi hj)
    exact ⟨⟨_, hnew⟩, _, hnew.readBack⟩
  · cases stepped with
    | @choose device i j shown table played hne hshown htable wellFormed found =>
        apply traced.screens_setDevice
        rintro _ ⟨⟩
        obtain ⟨finishes, hreachable⟩ := traced.tables table (.shown hshown htable)
        exact ⟨i, j, hreachable.choose hne found⟩
    | @finish device a b screen shown table i j data finishing =>
        apply traced.screens_setDevice
        rintro _ ⟨⟩
        obtain ⟨k, l, hscreen⟩ := traced.screens device screen finishing.screen_eq
        exact ⟨k, l, hscreen.tap a b⟩
    | commit | fail => exact traced.screens
    | @deliver device version data received hle hdata hreceived =>
        exact traced.screens_setDevice (traced.screens device)

omit [DecidableEq ι] in
theorem StartsWith.traced (starts : StartsWith created s) : Traced created s := by
  refine ⟨starts.consistent, ?_, ?_⟩
  · intro table held
    obtain ⟨new, hnew, rfl⟩ := starts.holds held
    exact ⟨[], (Reachable.create hnew).readBack⟩
  · intro device screen hscreen
    obtain ⟨_, _, _, _, _, _, _, _, hs⟩ := starts.initial
    rw [hs] at hscreen
    cases hscreen

/-- Every table held in a reachable state of the system has been produced. -/
theorem StartsWith.reachable_of_holds {initial final : System ι}
    {actions : List (Action ι)} (starts : StartsWith created initial)
    (hrun : run? System.step? initial actions = some final) {table : CompetitionTable}
    (held : Holds final table) :
    ∃ finishes, Reachable created.players (.competitionTable table finishes) :=
  (run?_invariant (P := Traced created) (fun traced hstep => traced.step hstep)
    starts.traced hrun).tables table held

end System

end AnyCompetition.Shared
