import AnyCompetition.Library.PendingWrites
import AnyCompetition.Shared.Invariant

/-!
# Failed writes

A finish changes the copy of its device before the write is known to succeed,
and the completion of a failed write only prints the error.  A device that has
received the current version agrees with it exactly when none of the writes it
has issued since then has failed.
-/

namespace AnyCompetition.Shared

open Json GuardedRun CompetitionViewController

variable {ι : Type} [DecidableEq ι] {created : Competition} {s t : System ι} {device : ι}

/-- A write in flight or failed. -/
def Uncommitted (s : System ι) (write : Write ι) : Prop :=
  write ∈ s.inFlight ∨ write ∈ s.failed

/-- The device has issued the write since the last snapshot it received. -/
def SinceSnapshot (s : System ι) (device : ι) (write : Write ι) : Prop :=
  write.device = device ∧ write.snapshots = (s.devices device).snapshots

/-- A copy counts more finishes than the version it started from. -/
def Ahead (received shown : Competition) : Prop :=
  ∃ old new, received.competitionTable = some old ∧ shown.competitionTable = some new ∧
    old.qtyFinishedGames < new.qtyFinishedGames

/-- A device shows the last version it has received, or is ahead of it by writes
of its own. -/
structure Follows (s : System ι) (device : ι) : Prop where
  past : ∀ write, Uncommitted s write → write.device = device →
    write.snapshots ≤ (s.devices device).snapshots
  copy : ∃ data received shown,
    s.versions[(s.devices device).delivered]? = some data ∧
    Database.decodeCompetition ⟨s.documentID, data⟩ = some received ∧
    (s.devices device).competition = some shown ∧
    ((shown = received ∧ ∀ write, Uncommitted s write → ¬ SinceSnapshot s device write) ∨
      (Ahead received shown ∧
        ((∃ write, Uncommitted s write ∧ SinceSnapshot s device write) ∨
          (s.devices device).delivered + 1 < s.versions.length)))

omit [DecidableEq ι] in
/-- A step that leaves the copy of a device alone and commits or keeps its writes. -/
theorem Follows.of_same_copy (follows : Follows s device)
    (documentID_eq : t.documentID = s.documentID)
    (versions : ∃ later, t.versions = s.versions ++ later)
    (competition_eq : (t.devices device).competition = (s.devices device).competition)
    (delivered_eq : (t.devices device).delivered = (s.devices device).delivered)
    (snapshots_eq : (t.devices device).snapshots = (s.devices device).snapshots)
    (fewer : ∀ write, write.device = device → Uncommitted t write → Uncommitted s write)
    (kept : ∀ write, write.device = device → Uncommitted s write →
      Uncommitted t write ∨ s.versions.length < t.versions.length) :
    Follows t device := by
  obtain ⟨later, hlater⟩ := versions
  obtain ⟨past, data, received, shown, hdata, hreceived, hshown, hcopy⟩ := follows
  have hdelivered := (List.getElem?_eq_some_iff.mp hdata).1
  refine ⟨?_, data, received, shown, ?_, ?_, ?_, ?_⟩
  · intro write huncommitted howner
    rw [snapshots_eq]
    exact past write (fewer write howner huncommitted) howner
  · rw [delivered_eq, hlater, List.getElem?_append_left hdelivered, hdata]
  · rw [documentID_eq, hreceived]
  · rw [competition_eq, hshown]
  · unfold SinceSnapshot at *
    rw [snapshots_eq, delivered_eq]
    rcases hcopy with ⟨hsame, hnone⟩ | ⟨hahead, ⟨write, huncommitted, hsince⟩ | hlonger⟩
    · refine Or.inl ⟨hsame, fun write huncommitted hsince => ?_⟩
      exact hnone write (fewer write hsince.1 huncommitted) hsince
    · refine Or.inr ⟨hahead, ?_⟩
      rcases kept write hsince.1 huncommitted with still | hcommitted
      · exact Or.inl ⟨write, still, hsince⟩
      · exact Or.inr (by omega)
    · refine Or.inr ⟨hahead, Or.inr ?_⟩
      rw [hlater, List.length_append]
      omega

/-- A snapshot makes a device show the version received. -/
theorem follows_deliver {version : Nat} {data : Fields} {received : Competition}
    (follows : Follows s device) (hdata : s.versions[version]? = some data)
    (hreceived : Database.decodeCompetition ⟨s.documentID, data⟩ = some received) :
    Follows (s.setDevice device
      { s.devices device with
        competition := some received
        delivered := version
        snapshots := (s.devices device).snapshots + 1 }) device := by
  refine ⟨?_, data, received, received, ?_, hreceived, ?_, Or.inl ⟨rfl, ?_⟩⟩
  · intro write huncommitted howner
    rw [System.setDevice_same]
    exact Nat.le_succ_of_le (follows.past write huncommitted howner)
  · rw [System.setDevice_same]
    exact hdata
  · rw [System.setDevice_same]
  · rintro write huncommitted ⟨howner, hsnapshots⟩
    rw [System.setDevice_same] at hsnapshots
    have hpast := follows.past write huncommitted howner
    dsimp only at hsnapshots
    omega

/-- A finish takes its device ahead of the version received. -/
theorem Finishing.follows {a b : Int} {screen : MatchViewController} {shown : Competition}
    {table : CompetitionTable} {i j : Nat} {data : Fields}
    (finishing : Finishing created s device a b screen shown table i j data)
    (consistent : Consistent created s) (follows : Follows s device) :
    Follows (s.afterFinish device a b screen shown table i j data) device := by
  obtain ⟨past, stored, received, copy, hstored, hreceived, hcopy, hstate⟩ := follows
  have hself : (s.afterFinish device a b screen shown table i j data).devices device =
      { s.devices device with
        competition := some { shown with
          competitionTable := some (table.storeMatch i j (screen.played.makeMatch a b)) }
        matchViewController := some (screen.finishMatch a b) } :=
    System.setDevice_same s device _
  have hnew : Uncommitted (s.afterFinish device a b screen shown table i j data)
      ⟨device, (s.devices device).snapshots, ⟨s.documentID, data⟩⟩ :=
    Or.inl (List.mem_append_right _ List.mem_cons_self)
  rw [finishing.shown_eq] at hcopy
  cases hcopy
  obtain ⟨version, hversion, _, hwellFormed⟩ :=
    consistent.versions stored (List.mem_of_getElem? hstored)
  rw [hreceived] at hversion
  cases hversion
  obtain ⟨old, hold, _⟩ := hwellFormed.table
  -- the counter of the copy has been raised once more
  have hahead : old.qtyFinishedGames <
      (table.storeMatch i j (screen.played.makeMatch a b)).qtyFinishedGames := by
    change _ < table.qtyFinishedGames + 1
    rcases hstate with ⟨rfl, _⟩ | ⟨⟨_, _, holdTable, hnewTable, hless⟩, _⟩
    · rw [finishing.table_eq] at hold
      cases hold
      omega
    · rw [hold] at holdTable
      rw [finishing.table_eq] at hnewTable
      cases holdTable
      cases hnewTable
      omega
  refine ⟨?_, stored, received, _, ?_, hreceived, congrArg Device.competition hself,
    Or.inr ⟨⟨old, _, hold, rfl, hahead⟩, Or.inl ⟨_, hnew, rfl, ?_⟩⟩⟩
  · intro write huncommitted howner
    rw [hself]
    rcases huncommitted with pending | lost
    · rcases List.mem_append.mp pending with older | newest
      · exact past write (Or.inl older) howner
      · exact Nat.le_of_eq (congrArg Write.snapshots (List.mem_singleton.mp newest))
    · exact past write (Or.inr lost) howner
  · rw [hself]
    exact hstored
  · rw [hself]

/-- Every step keeps every device behind or ahead of its last version. -/
theorem Follows.step (follows : ∀ device, Follows s device)
    (consistent : Consistent created s) {action : Action ι}
    (hstep : s.step? action = some t) (device : ι) : Follows t device := by
  cases consistent.stepped hstep with
  | @choose other i j shown table played hne hshown htable wellFormed found =>
      refine (follows device).of_same_copy rfl ⟨[], (List.append_nil _).symm⟩ ?_ ?_ ?_
        (fun _ _ huncommitted => huncommitted) (fun _ _ huncommitted => Or.inl huncommitted)
      all_goals
        by_cases hother : device = other
        · subst hother
          rw [System.setDevice_same]
        · rw [System.setDevice_other s _ hother]
  | @finish other a b screen shown table i j data finishing =>
      by_cases hother : device = other
      · subst hother
        exact finishing.follows consistent (follows device)
      · have hsame : (s.afterFinish other a b screen shown table i j data).devices device =
            s.devices device := System.setDevice_other s _ hother
        refine (follows device).of_same_copy rfl ⟨[], (List.append_nil _).symm⟩
          (congrArg Device.competition hsame) (congrArg Device.delivered hsame)
          (congrArg Device.snapshots hsame) ?_ ?_
        · rintro write howner (pending | lost)
          · rcases List.mem_append.mp pending with older | newest
            · exact Or.inl older
            · rw [List.mem_singleton.mp newest] at howner
              exact absurd howner.symm hother
          · exact Or.inr lost
        · rintro write _ (pending | lost)
          · exact Or.inl (Or.inl (List.mem_append_left _ pending))
          · exact Or.inl (Or.inr lost)
  | @commit index write hwrite =>
      refine (follows device).of_same_copy rfl ⟨_, rfl⟩ rfl rfl rfl ?_ ?_
      · rintro other _ (pending | lost)
        · exact Or.inl (List.mem_of_mem_eraseIdx pending)
        · exact Or.inr lost
      · intro _ _ _
        exact Or.inr (by simp)
  | @fail index write hwrite =>
      refine (follows device).of_same_copy rfl ⟨[], (List.append_nil _).symm⟩ rfl rfl rfl
        ?_ ?_
      · rintro other _ (pending | lost)
        · exact Or.inl (List.mem_of_mem_eraseIdx pending)
        · rcases List.mem_append.mp lost with older | newest
          · exact Or.inr older
          · rw [List.mem_singleton.mp newest]
            exact Or.inl (List.mem_of_getElem? hwrite)
      · rintro other _ (pending | lost)
        · rcases PendingWrites.mem_eraseIdx_or_eq hwrite pending with still | rfl
          · exact Or.inl (Or.inl still)
          · exact Or.inl (Or.inr (List.mem_append_right _ List.mem_cons_self))
        · exact Or.inl (Or.inr (List.mem_append_left _ lost))
  | @deliver other version data received hle hdata hreceived =>
      by_cases hother : device = other
      · subst hother
        exact follows_deliver (follows device) hdata hreceived
      · have hsame := System.setDevice_other s
          { s.devices other with
            competition := some received
            delivered := version
            snapshots := (s.devices other).snapshots + 1 } hother
        exact (follows device).of_same_copy rfl ⟨[], (List.append_nil _).symm⟩
          (congrArg Device.competition hsame) (congrArg Device.delivered hsame)
          (congrArg Device.snapshots hsame) (fun _ _ huncommitted => huncommitted)
          (fun _ _ huncommitted => Or.inl huncommitted)

omit [DecidableEq ι] in
theorem StartsWith.follows (starts : StartsWith created s) (device : ι) :
    Follows s device := by
  obtain ⟨data, first, _, _, _, _, _, hdecode, hs⟩ := starts.initial
  rw [hs]
  refine ⟨?_, data, first, first, rfl, hdecode, rfl, Or.inl ⟨rfl, ?_⟩⟩
  · rintro write (pending | lost)
    · cases pending
    · cases lost
  · rintro write (pending | lost)
    · cases pending
    · cases lost

theorem StartsWith.follows_of_run {initial final : System ι} {actions : List (Action ι)}
    (starts : StartsWith created initial)
    (hrun : run? System.step? initial actions = some final) (device : ι) :
    Follows final device :=
  (run?_invariant (P := fun s => Consistent created s ∧ ∀ device, Follows s device)
    (fun holds hstep => ⟨holds.1.step hstep, Follows.step holds.2 holds.1 hstep⟩)
    ⟨starts.consistent, starts.follows⟩ hrun).2 device

/--
In a reachable state with no write in flight, a device that has received the
latest version shows what the document stores, up to the document ids of users,
if and only if no write that it has issued since that snapshot has failed.
-/
theorem agrees_iff_no_failed_write {initial final : System ι} {actions : List (Action ι)}
    (starts : StartsWith created initial)
    (hrun : run? System.step? initial actions = some final) (device : ι)
    (quiet : final.inFlight = [])
    (latest : (final.devices device).delivered + 1 = final.versions.length) :
    ∃ data stored shown, final.stored = some data ∧
      Database.decodeCompetition ⟨final.documentID, data⟩ = some stored ∧
      (final.devices device).competition = some shown ∧
      (shown.withoutDocId = stored.withoutDocId ↔
        ∀ write ∈ final.failed, ¬ SinceSnapshot final device write) := by
  obtain ⟨_, data, stored, shown, hdata, hstored, hshown, hcopy⟩ :=
    starts.follows_of_run hrun device
  have hlast : final.stored = some data := by
    rw [System.stored, List.getLast?_eq_getElem?, ← latest]
    exact hdata
  refine ⟨data, stored, shown, hlast, hstored, hshown, ?_⟩
  rcases hcopy with ⟨rfl, hnone⟩ | ⟨⟨old, new, hold, hnew, hless⟩, hissued⟩
  · exact ⟨fun _ write hfailed => hnone write (Or.inr hfailed), fun _ => rfl⟩
  · constructor
    · intro hsame
      have htable := congrArg Competition.competitionTable hsame
      simp only [Competition.withoutDocId, hold, hnew, Option.map_some,
        Option.some.injEq] at htable
      have hcounter := congrArg CompetitionTable.qtyFinishedGames htable
      simp only [CompetitionTable.withoutDocId] at hcounter
      omega
    · intro hnone
      rcases hissued with ⟨write, pending | lost, hsince⟩ | hlonger
      · rw [quiet] at pending
        cases pending
      · exact absurd hsince (hnone write lost)
      · omega

/-- A write fails, and the next snapshot brings the device back to the document. -/
theorem agrees_iff_no_failed_write_after_snapshot :
    ∃ final, run? System.step? (opened Bool [.anna, .boris, .vera])
        [.choose true 0 1, .finish true 1 0, .fail 0, .choose false 1 2, .finish false 2 2,
         .commit 0, .deliver true 1] = some final ∧
      ∃ data stored shown, final.stored = some data ∧
        Database.decodeCompetition ⟨final.documentID, data⟩ = some stored ∧
        (final.devices true).competition = some shown ∧
        (shown.withoutDocId = stored.withoutDocId ↔
          ∀ write ∈ final.failed, ¬ SinceSnapshot final true write) := by
  have hcheck : (run? System.step? (opened Bool [.anna, .boris, .vera])
        [.choose true 0 1, .finish true 1 0, .fail 0, .choose false 1 2, .finish false 2 2,
         .commit 0, .deliver true 1]).any (fun final =>
      final.inFlight.length = 0 ∧
        (final.devices true).delivered + 1 = final.versions.length) = true := by
    decide +kernel
  obtain ⟨final, hrun, hfacts⟩ := (Option.any_eq_true _ _).mp hcheck
  obtain ⟨hquiet, hlatest⟩ := of_decide_eq_true hfacts
  exact ⟨final, hrun, agrees_iff_no_failed_write (startsWith_three Bool) hrun true
    (List.eq_nil_of_length_eq_zero hquiet) hlatest⟩

/-- After a failed write a device shows a finished competition whose document
records nothing, with nothing in flight and no version left to deliver. -/
theorem failed_write_stays_shown :
    StartsWith (cup [.anna, .boris]) (opened Unit [.anna, .boris]) ∧
    ∃ final data stored shown,
      run? System.step? (opened Unit [.anna, .boris])
        [.choose () 0 1, .finish () 1 0, .fail 0] = some final ∧
      final.inFlight = [] ∧
      (final.devices ()).delivered + 1 = final.versions.length ∧
      final.stored = some data ∧
      Database.decodeCompetition ⟨final.documentID, data⟩ = some stored ∧
      (final.devices ()).competition = some shown ∧
      (shown.competitionTable.any fun table => table.isCompetitionFinished) = true ∧
      (stored.competitionTable.any fun table => table.isCompetitionFinished) = false ∧
      shown.withoutDocId ≠ stored.withoutDocId := by
  have hcheck : ((run? System.step? (opened Unit [.anna, .boris])
      [.choose () 0 1, .finish () 1 0, .fail 0]).bind fun final =>
        final.stored.bind fun data =>
          (Database.decodeCompetition ⟨final.documentID, data⟩).bind fun stored =>
            (final.devices ()).competition.map fun shown =>
              (final, data, stored, shown)).any (fun found =>
        found.1.inFlight.length = 0 ∧
        (found.1.devices ()).delivered + 1 = found.1.versions.length ∧
        (found.2.2.2.competitionTable.any fun table => table.isCompetitionFinished) = true ∧
        (found.2.2.1.competitionTable.any fun table => table.isCompetitionFinished) =
          false) = true := by
    decide +kernel
  obtain ⟨⟨final, data, stored, shown⟩, hfound, hfacts⟩ := (Option.any_eq_true _ _).mp hcheck
  obtain ⟨_, hfinal, hrest⟩ := Option.bind_eq_some_iff.mp hfound
  obtain ⟨_, hdata, hrest⟩ := Option.bind_eq_some_iff.mp hrest
  obtain ⟨_, hstored, hrest⟩ := Option.bind_eq_some_iff.mp hrest
  obtain ⟨_, hshown, hpair⟩ := Option.map_eq_some_iff.mp hrest
  cases hpair
  obtain ⟨hquiet, hlatest, hflag, hrecorded⟩ := of_decide_eq_true hfacts
  refine ⟨startsWith_two Unit, final, data, stored, shown, hfinal,
    List.eq_nil_of_length_eq_zero hquiet, hlatest, hdata, hstored, hshown, hflag, hrecorded,
    ?_⟩
  intro hsame
  have htables := congrArg (fun competition : Competition =>
    competition.competitionTable.any fun table => table.isCompetitionFinished) hsame
  simp only [Competition.withoutDocId, Option.any_map] at htables
  have hflags : (shown.competitionTable.any fun table => table.isCompetitionFinished) =
      stored.competitionTable.any fun table => table.isCompetitionFinished := htables
  rw [hflag, hrecorded] at hflags
  cases hflags

end AnyCompetition.Shared
