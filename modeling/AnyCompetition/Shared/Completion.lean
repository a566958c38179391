import AnyCompetition.Models.FinishedPairs
import AnyCompetition.Shared.HeldTables

/-!
# A shared competition can always be completed

Whatever has happened, once the writes in flight have committed any one of the devices can
finish the pairs still open, one after the other, and all results stored by then stay.
-/

namespace AnyCompetition

/-- The cells that were done have the same matches, up to document ids. -/
def CompetitionTable.KeepsResults (old new : CompetitionTable) : Prop :=
  ∀ i j, old.isDone i j →
    (new.match? i j).map Match.withoutDocId = (old.match? i j).map Match.withoutDocId

namespace CompetitionTable.KeepsResults

variable {old middle new table : CompetitionTable} {players : List User} {i j : Nat}

theorem refl (table : CompetitionTable) : KeepsResults table table :=
  fun _ _ _ => rfl

theorem isDone (kept : KeepsResults old new) (done : old.isDone i j) : new.isDone i j := by
  rw [← isDone_withoutDocId, CompetitionTable.isDone, match?_withoutDocId, kept i j done,
    ← match?_withoutDocId]
  exact (isDone_withoutDocId old i j).mpr done

theorem trans (before : KeepsResults old middle) (after : KeepsResults middle new) :
    KeepsResults old new := by
  intro i j done
  rw [after i j (before.isDone done), before i j done]

/-- A match of an open pair does not change the others. -/
theorem storeMatch (wellFormed : table.WellFormed players) (played : Match)
    (hi : i < players.length) (hj : j < players.length) (hopen : ¬ table.isDone i j) :
    KeepsResults table (table.storeMatch i j played).withoutDocId := by
  intro k l done
  have hmirrored : ¬ (k = j ∧ l = i) := by
    rintro ⟨rfl, rfl⟩
    exact hopen (wellFormed.isDone_comm _ _ done)
  have hsame : ¬ (k = i ∧ l = j) := by
    rintro ⟨rfl, rfl⟩
    exact hopen done
  rw [match?_withoutDocId, match?_storeMatch wellFormed.square played hi hj, if_neg hmirrored,
    if_neg hsame, Option.map_map]
  congr 1
  funext found
  simp [Match.withoutDocId]

end CompetitionTable.KeepsResults

namespace Shared

open Json GuardedRun CompetitionViewController

variable {ι : Type} [DecidableEq ι] {created : Competition} {s t : System ι}
  {device : ι} {table : CompetitionTable}

/-- The table of the current version of the document. -/
def StoresTable (s : System ι) (table : CompetitionTable) : Prop :=
  ∃ data, s.stored = some data ∧ HoldsIn s.documentID data table

/-- The device has a copy of this table. -/
def ShowsTable (s : System ι) (device : ι) (table : CompetitionTable) : Prop :=
  ∃ shown, (s.devices device).competition = some shown ∧ shown.competitionTable = some table

/-- The device opens cells, finishes matches and receives snapshots, and writes commit. -/
def ByDevice (device : ι) : Action ι → Prop
  | .choose other _ _ | .finish other _ _ | .deliver other _ => other = device
  | .commit _ => True
  | .fail _ => False

/-- No write is in flight, and the device shows the stored table. -/
structure Settled (created : Competition) (s : System ι) (device : ι)
    (table : CompetitionTable) : Prop where
  consistent : Consistent created s
  received : (s.devices device).delivered < s.versions.length
  idle : s.inFlight = []
  stores : StoresTable s table
  shows : ShowsTable s device table

/-! ## The version received -/

/-- Every device has received a version that exists. -/
theorem received_step (consistent : Consistent created s)
    (received : ∀ device, (s.devices device).delivered < s.versions.length)
    {action : Action ι} (hstep : s.step? action = some t) :
    ∀ device, (t.devices device).delivered < t.versions.length := by
  cases consistent.stepped hstep with
  | @choose device i j shown table played =>
      exact System.forall_setDevice (P := fun _ next => next.delivered < s.versions.length)
        (received device) received
  | @finish device a b screen shown table i j data finishing =>
      exact System.forall_setDevice (P := fun _ next => next.delivered < s.versions.length)
        (received device) received
  | commit =>
      intro device
      rw [List.length_append]
      exact Nat.lt_add_right _ (received device)
  | fail => exact received
  | @deliver device version data shown hle hdata =>
      exact System.forall_setDevice (P := fun _ next => next.delivered < s.versions.length)
        (List.getElem?_eq_some_iff.mp hdata).1 received

omit [DecidableEq ι] in
theorem StartsWith.received (starts : StartsWith created s) (device : ι) :
    (s.devices device).delivered < s.versions.length := by
  obtain ⟨_, _, _, _, _, _, _, _, hs⟩ := starts.initial
  rw [hs]
  exact Nat.one_pos

omit [DecidableEq ι] in
/-- The current version has a table. -/
theorem Consistent.exists_stored (consistent : Consistent created s)
    (received : (s.devices device).delivered < s.versions.length) :
    ∃ table, StoresTable s table := by
  obtain ⟨data, hdata⟩ : ∃ data, s.versions.getLast? = some data :=
    ⟨_, List.getLast?_eq_some_getLast (List.ne_nil_of_length_pos (Nat.zero_lt_of_lt received))⟩
  obtain ⟨version, hdecode, _, hwellFormed⟩ :=
    consistent.versions data (List.mem_of_getLast? hdata)
  obtain ⟨table, htable, _⟩ := hwellFormed.table
  exact ⟨table, data, hdata, version, hdecode, htable⟩

/-- A snapshot of the current version, with no write in flight, settles the device. -/
theorem Consistent.refresh (consistent : Consistent created s) (idle : s.inFlight = [])
    (received : (s.devices device).delivered < s.versions.length)
    (stores : StoresTable s table) :
    ∃ t, s.step? (.deliver device (s.versions.length - 1)) = some t ∧
      Settled created t device table := by
  obtain ⟨data, hdata, version, hdecode, htable⟩ := id stores
  have hlast : s.versions[s.versions.length - 1]? = some data := by
    rw [← List.getLast?_eq_getElem?]
    exact hdata
  have hversion := consistent.versions data (List.mem_of_getElem? hlast)
  have hstep : s.step? (.deliver device (s.versions.length - 1)) = some (s.setDevice device
      { s.devices device with
        competition := some version
        delivered := s.versions.length - 1
        snapshots := (s.devices device).snapshots + 1 }) := by
    simp only [System.step?, if_pos (Nat.le_sub_one_of_lt received), hlast,
      hversion.receiveSnapshot, hdecode]
  refine ⟨_, hstep, consistent.step hstep, ?_, idle, stores, version, ?_, htable⟩
  · rw [System.setDevice_same]
    exact Nat.sub_one_lt_of_lt received
  · rw [System.setDevice_same]

/-- The oldest write in flight commits. -/
theorem Consistent.commitOldest (consistent : Consistent created s) {write : Write ι}
    {later : List (Write ι)} (pending : s.inFlight = write :: later) :
    ∃ t, s.step? (.commit 0) = some t ∧ t.inFlight = later ∧
      t.versions = s.versions ++ [write.document.data] ∧ t.devices = s.devices ∧
      t.documentID = s.documentID := by
  have hwrite : s.inFlight[0]? = some write := by
    rw [pending]
    rfl
  obtain ⟨hdocument, _⟩ := consistent.inFlight write (List.mem_of_getElem? hwrite)
  refine ⟨{ s with
    versions := s.versions ++ [write.document.data]
    inFlight := s.inFlight.eraseIdx 0 }, ?_, ?_, rfl, rfl, rfl⟩
  · simp only [System.step?, hwrite, if_pos hdocument]
  · change s.inFlight.eraseIdx 0 = later
    rw [pending]
    rfl

/-- All writes in flight commit, the oldest first. -/
theorem Consistent.commitAll (consistent : Consistent created s) :
    ∃ t, run? System.step? s (List.replicate s.inFlight.length (.commit 0)) = some t ∧
      t.inFlight = [] := by
  generalize hpending : s.inFlight = pending
  induction pending generalizing s with
  | nil => exact ⟨s, rfl, hpending⟩
  | cons write later ih =>
      obtain ⟨next, hstep, hlater, _⟩ := consistent.commitOldest hpending
      obtain ⟨t, hrun, hidle⟩ := ih (consistent.step hstep) hlater
      exact ⟨t, run?_cons_eq_some_iff.mpr ⟨next, hstep, hrun⟩, hidle⟩

/-! ## One more pair -/

/-- A settled device finishes a match, and its write commits and comes back. -/
theorem Settled.round (settled : Settled created s device table) {i j : Nat} (hne : i ≠ j)
    (hi : i < created.players.length) (hj : j < created.players.length) (a b : Int) :
    ∃ rest t played, run? System.step? s rest = some t ∧
      (∀ action ∈ rest, ByDevice device action) ∧ table.match? i j = some played ∧
      Settled created t device (table.storeMatch i j (played.makeMatch a b)).withoutDocId := by
  obtain ⟨shown, hshown, htable⟩ := settled.shows
  have wellFormed := settled.consistent.wellFormed_of_holds (.shown hshown htable)
  obtain ⟨played, found⟩ := wellFormed.exists_match hi hj
  -- the cell is opened
  have hchoose : s.step? (.choose device i j) = some (s.setDevice device
      { s.devices device with matchViewController := some { played } }) := by
    simp only [System.step?, if_neg hne, hshown, chooseMatch_eq htable found]
  have consistent := settled.consistent.step hchoose
  -- the match is finished and written
  obtain ⟨copy, inside, k, l, data, finishing, hfinish⟩ :=
    consistent.finish (a := a) (b := b) (congrArg Device.matchViewController
      (System.setDevice_same s device _))
  have hcopy : copy = shown := by
    have hcompetition := finishing.shown_eq
    rw [System.setDevice_same] at hcompetition
    exact Option.some.inj (hcompetition.symm.trans hshown)
  subst hcopy
  have hinside : inside = table := Option.some.inj (finishing.table_eq.symm.trans htable)
  subst hinside
  have hindex : k = i ∧ l = j := by
    have hopened := finishing.openCell.2.2.2.matchIndex
    rw [(wellFormed.ofCell i j played found).matchIndex] at hopened
    simp only [MatchIndex.mk.injEq, Int.natCast_inj] at hopened
    exact ⟨hopened.1.symm, hopened.2.symm⟩
  obtain ⟨rfl, rfl⟩ := hindex
  have consistent := consistent.step hfinish
  -- the write commits and is delivered
  obtain ⟨committed, hcommit, idle, hversions, hdevices, hdocumentID⟩ := consistent.commitOldest
    (congrArg (· ++ [_]) settled.idle)
  have stores : StoresTable committed
      (inside.storeMatch k l (played.makeMatch a b)).withoutDocId := by
    refine ⟨data, ?_, ?_⟩
    · rw [System.stored, hversions]
      exact List.getLast?_concat
    · rw [hdocumentID]
      exact ⟨_, finishing.data_eq, rfl⟩
  have received : (committed.devices device).delivered < committed.versions.length := by
    have hdelivered : (committed.devices device).delivered = (s.devices device).delivered := by
      simp [hdevices, System.afterFinish, System.issue]
    rw [hdelivered, hversions, List.length_append]
    exact Nat.lt_add_right _ settled.received
  obtain ⟨t, hdeliver, hsettled⟩ := (consistent.step hcommit).refresh idle received stores
  refine ⟨[.choose device k l, .finish device a b, .commit 0,
    .deliver device (committed.versions.length - 1)], t, played, ?_, ?_, found, hsettled⟩
  · exact run?_cons_eq_some_iff.mpr ⟨_, hchoose, run?_cons_eq_some_iff.mpr ⟨_, hfinish,
      run?_cons_eq_some_iff.mpr ⟨_, hcommit, (run?_singleton _ _).trans hdeliver⟩⟩⟩
  · simp [ByDevice]

/-- The pairs still open are finished one after the other. -/
theorem Settled.complete (settled : Settled created s device table) (cells : List (Nat × Nat))
    (inRange : ∀ cell ∈ cells, cell.1 ≠ cell.2 ∧ cell.1 < created.players.length ∧
      cell.2 < created.players.length) :
    ∃ rest t later, run? System.step? s rest = some t ∧
      (∀ action ∈ rest, ByDevice device action) ∧ Settled created t device later ∧
      table.KeepsResults later ∧ ∀ cell ∈ cells, later.isDone cell.1 cell.2 := by
  induction cells generalizing s table with
  | nil =>
      exact ⟨[], s, table, rfl, List.forall_mem_nil _, settled, .refl table,
        List.forall_mem_nil _⟩
  | cons cell cells ih =>
      obtain ⟨hne, hi, hj⟩ := inRange cell List.mem_cons_self
      have hrest := fun other membership => inRange other (List.mem_cons_of_mem cell membership)
      by_cases hdone : table.isDone cell.1 cell.2
      · obtain ⟨rest, t, later, hrun, alone, hsettled, kept, done⟩ := ih settled hrest
        exact ⟨rest, t, later, hrun, alone, hsettled, kept,
          List.forall_mem_cons.mpr ⟨kept.isDone hdone, done⟩⟩
      · obtain ⟨first, next, played, hfirst, firstAlone, _, hnext⟩ :=
          settled.round hne hi hj 1 0
        obtain ⟨rest, t, later, hrun, alone, hsettled, kept, done⟩ := ih hnext hrest
        obtain ⟨shown, hshown, htable⟩ := settled.shows
        have wellFormed := settled.consistent.wellFormed_of_holds (.shown hshown htable)
        have hnew : (table.storeMatch cell.1 cell.2
            (played.makeMatch 1 0)).withoutDocId.isDone cell.1 cell.2 := by
          rw [CompetitionTable.isDone_withoutDocId, CompetitionTable.isDone_storeMatch
            wellFormed.square (played.makeMatch_isDone 1 0) hi hj]
          exact Or.inr (Or.inl ⟨rfl, rfl⟩)
        refine ⟨first ++ rest, t, later, run?_trans hfirst hrun,
          List.forall_mem_append.mpr ⟨firstAlone, alone⟩, hsettled, ?_,
          List.forall_mem_cons.mpr ⟨kept.isDone hnew, done⟩⟩
        exact (CompetitionTable.KeepsResults.storeMatch wellFormed _ hi hj hdone).trans kept

/-- All cells off the diagonal. -/
def offDiagonal (n : Nat) : List (Nat × Nat) :=
  (List.range n ×ˢ List.range n).filter fun cell => cell.1 ≠ cell.2

theorem mem_offDiagonal {n : Nat} {cell : Nat × Nat} :
    cell ∈ offDiagonal n ↔ cell.1 ≠ cell.2 ∧ cell.1 < n ∧ cell.2 < n := by
  obtain ⟨i, j⟩ := cell
  simp [offDiagonal, and_comm]

/--
From every reachable state the competition can be completed by any one of its devices: the
writes in flight commit, and then this device alone can finish all pairs still open, so
that it shows and the document stores a table with every match done, in which all
results stored before are kept.
-/
theorem can_be_completed {initial : System ι} {actions : List (Action ι)}
    (starts : StartsWith created initial) (hrun : run? System.step? initial actions = some s)
    (device : ι) :
    ∃ committed current rest final table,
      run? System.step? s (List.replicate s.inFlight.length (.commit 0)) = some committed ∧
      committed.inFlight = [] ∧ StoresTable committed current ∧
      run? System.step? committed rest = some final ∧
      (∀ action ∈ rest, ByDevice device action) ∧ final.inFlight = [] ∧
      StoresTable final table ∧ ShowsTable final device table ∧
      current.KeepsResults table ∧
      ∀ i j, i ≠ j → i < created.players.length → j < created.players.length →
        table.isDone i j := by
  have consistent : Consistent created s := run?_invariant (P := Consistent created)
    (fun consistent hstep => consistent.step hstep) starts.consistent hrun
  obtain ⟨committed, hcommitted, idle⟩ := consistent.commitAll
  have hwhole : run? System.step? initial
      (actions ++ List.replicate s.inFlight.length (.commit 0)) = some committed :=
    run?_trans hrun hcommitted
  obtain ⟨reached, received⟩ := run?_invariant
    (P := fun s : System ι => Consistent created s ∧
      ∀ device, (s.devices device).delivered < s.versions.length)
    (fun holds hstep => ⟨holds.1.step hstep, received_step holds.1 holds.2 hstep⟩)
    ⟨starts.consistent, starts.received⟩ hwhole
  obtain ⟨current, stores⟩ := reached.exists_stored (received device)
  obtain ⟨settled, hsettled, hdevice⟩ := reached.refresh idle (received device) stores
  obtain ⟨rest, final, table, hrest, alone, hfinal, kept, done⟩ :=
    hdevice.complete (offDiagonal created.players.length) fun cell => mem_offDiagonal.mp
  refine ⟨committed, current, _ :: rest, final, table, hcommitted, idle, stores,
    run?_cons_eq_some_iff.mpr ⟨settled, hsettled, hrest⟩, List.forall_mem_cons.mpr ⟨rfl, alone⟩,
    hfinal.idle, hfinal.stores, hfinal.shows, kept, ?_⟩
  intro i j hne hi hj
  exact done (i, j) (mem_offDiagonal.mpr ⟨hne, hi, hj⟩)

/-- One device has a write in flight, and the other completes the competition. -/
theorem can_be_completed_three_players :
    ∃ s committed rest final table,
      run? System.step? (opened Bool [.anna, .boris, .vera])
        [.choose true 0 1, .finish true 2 1] = some s ∧ s.inFlight.length = 1 ∧
      run? System.step? s (List.replicate s.inFlight.length (.commit 0)) = some committed ∧
      run? System.step? committed rest = some final ∧
      (∀ action ∈ rest, ByDevice false action) ∧ final.inFlight = [] ∧
      StoresTable final table ∧ ShowsTable final false table ∧
      ∀ i j, i ≠ j → i < 3 → j < 3 → table.isDone i j := by
  have hcheck : (run? System.step? (opened Bool [.anna, .boris, .vera])
      [.choose true 0 1, .finish true 2 1]).any (fun s => s.inFlight.length = 1) = true := by
    decide +kernel
  obtain ⟨s, hrun, hlength⟩ := (Option.any_eq_true _ _).mp hcheck
  obtain ⟨committed, _, rest, final, table, hcommitted, _, _, hrest, alone, idle, stores,
    shows, _, done⟩ := can_be_completed (startsWith_three Bool) hrun false
  exact ⟨s, committed, rest, final, table, hrun, of_decide_eq_true hlength, hcommitted, hrest,
    alone, idle, stores, shows, done⟩

end Shared

end AnyCompetition
