import AnyCompetition.Shared.System

/-!
# What a step does, and the invariant of the shared competition

One inversion lemma says all that a step from a consistent state can do.  Every
reachable state is consistent: all versions, in the document, in flight and on
the devices, are well-formed versions of the created competition.
-/

namespace AnyCompetition.Shared

open Json GuardedRun CompetitionViewController

variable {ι : Type} [DecidableEq ι] {created : Competition} {s t : System ι}

/-- All that a step from a consistent state can do. -/
inductive Stepped (created : Competition) (s : System ι) : Action ι → System ι → Prop where
  | choose {device : ι} {i j : Nat} {shown : Competition} {table : CompetitionTable}
      {played : Match} (hne : i ≠ j)
      (hshown : (s.devices device).competition = some shown)
      (htable : shown.competitionTable = some table)
      (wellFormed : table.WellFormed created.players)
      (found : table.match? i j = some played) :
      Stepped created s (.choose device i j)
        (s.setDevice device
          { s.devices device with matchViewController := some { played } })
  | finish {device : ι} {a b : Int} {screen : MatchViewController}
      {shown : Competition} {table : CompetitionTable} {i j : Nat} {data : Fields}
      (finishing : Finishing created s device a b screen shown table i j data) :
      Stepped created s (.finish device a b)
        (s.afterFinish device a b screen shown table i j data)
  | commit {index : Nat} {write : Write ι} (hwrite : s.inFlight[index]? = some write) :
      Stepped created s (.commit index)
        { s with
          versions := s.versions ++ [write.document.data]
          inFlight := s.inFlight.eraseIdx index }
  | fail {index : Nat} {write : Write ι} (hwrite : s.inFlight[index]? = some write) :
      Stepped created s (.fail index)
        { s with
          inFlight := s.inFlight.eraseIdx index
          failed := s.failed ++ [write] }
  | deliver {device : ι} {version : Nat} {data : Fields} {received : Competition}
      (hle : (s.devices device).delivered ≤ version)
      (hdata : s.versions[version]? = some data)
      (hreceived : Database.decodeCompetition ⟨s.documentID, data⟩ = some received) :
      Stepped created s (.deliver device version)
        (s.setDevice device
          { s.devices device with
            competition := some received
            delivered := version
            snapshots := (s.devices device).snapshots + 1 })

theorem Consistent.stepped (consistent : Consistent created s) {action : Action ι}
    (hstep : s.step? action = some t) : Stepped created s action t := by
  cases action with
  | choose device i j =>
      obtain ⟨shown, hshown, _, hwellFormed⟩ := consistent.shown device
      obtain ⟨table, htable, wellFormed⟩ := hwellFormed.table
      by_cases hdiagonal : i = j
      · simp [System.step?, hdiagonal] at hstep
      · cases found : table.match? i j with
        | none =>
            simp [System.step?, hdiagonal, hshown, chooseMatch_trap htable found] at hstep
        | some played =>
            simp only [System.step?, hdiagonal, if_false, hshown,
              chooseMatch_eq htable found, Option.some.injEq] at hstep
            subst hstep
            rw [← hshown]
            exact .choose hdiagonal hshown htable wellFormed found
  | finish device a b =>
      cases hscreen : (s.devices device).matchViewController with
      | none => simp [System.step?, hscreen] at hstep
      | some screen =>
          obtain ⟨shown, table, i, j, data, finishing, hfinish⟩ :=
            consistent.finish (a := a) (b := b) hscreen
          rw [hfinish] at hstep
          cases hstep
          exact .finish finishing
  | commit index =>
      cases hwrite : s.inFlight[index]? with
      | none => simp [System.step?, hwrite] at hstep
      | some write =>
          obtain ⟨hdocument, _⟩ := consistent.inFlight write (List.mem_of_getElem? hwrite)
          simp only [System.step?, hwrite, hdocument, if_true, Option.some.injEq] at hstep
          subst hstep
          exact .commit hwrite
  | fail index =>
      cases hwrite : s.inFlight[index]? with
      | none => simp [System.step?, hwrite] at hstep
      | some write =>
          simp only [System.step?, hwrite, Option.some.injEq] at hstep
          subst hstep
          exact .fail hwrite
  | deliver device version =>
      by_cases hle : (s.devices device).delivered ≤ version
      · cases hdata : s.versions[version]? with
        | none => simp [System.step?, hle, hdata] at hstep
        | some data =>
            have hversion := consistent.versions data (List.mem_of_getElem? hdata)
            obtain ⟨received, hreceived, _, _⟩ := id hversion
            simp only [System.step?, hle, if_true, hdata, hversion.receiveSnapshot,
              hreceived, Option.some.injEq] at hstep
            subst hstep
            exact .deliver hle hdata hreceived
      · simp [System.step?, hle] at hstep

/-! ## The invariant is kept -/

omit [DecidableEq ι] in
/-- The copy of a finishing device stays a well-formed version. -/
theorem Finishing.shown_afterFinish {device : ι} {a b : Int} {screen : MatchViewController}
    {shown : Competition} {table : CompetitionTable} {i j : Nat} {data : Fields}
    (finishing : Finishing created s device a b screen shown table i j data) :
    created.WellFormed { shown with
      competitionTable := some
        (table.storeMatch i j (screen.played.makeMatch a b)) } := by
  obtain ⟨hne, hi, hj, ofCell⟩ := finishing.openCell
  exact { finishing.shown_wellFormed with
    table := ⟨_, rfl, finishing.wellFormed.storeMatch (ofCell.makeMatch a b) hi hj hne⟩ }

omit [DecidableEq ι] in
/-- A finishing device writes a well-formed version. -/
theorem Finishing.version {device : ι} {a b : Int} {screen : MatchViewController}
    {shown : Competition} {table : CompetitionTable} {i j : Nat} {data : Fields}
    (finishing : Finishing created s device a b screen shown table i j data) :
    Version created s.documentID data :=
  ⟨_, finishing.data_eq, rfl, finishing.shown_afterFinish.readBack s.documentID⟩

/-- A change of one device keeps consistency when its copy and its screen are fine. -/
theorem Consistent.setDevice (consistent : Consistent created s) {device : ι}
    {next : Device}
    (hshown : ∃ shown, next.competition = some shown ∧
      shown.id = some s.documentID ∧ created.WellFormed shown)
    (hscreen : ∀ screen, next.matchViewController = some screen →
      ∃ i j, OpenCell created screen i j) :
    Consistent created (s.setDevice device next) where
  versions := consistent.versions
  inFlight := consistent.inFlight
  shown := System.forall_setDevice (P := fun _ next => ∃ shown,
    next.competition = some shown ∧ shown.id = some s.documentID ∧ created.WellFormed shown)
    hshown consistent.shown
  screens := System.forall_setDevice (P := fun _ next => ∀ screen,
    next.matchViewController = some screen → ∃ i j, OpenCell created screen i j)
    hscreen consistent.screens

omit [DecidableEq ι] in
/-- Starting the write of a version keeps consistency. -/
theorem Consistent.issue (consistent : Consistent created s) {write : Write ι}
    (hwrite : write.document.documentID = s.documentID ∧
      Version created s.documentID write.document.data) :
    Consistent created (s.issue write) where
  versions := consistent.versions
  inFlight other membership := by
    rcases List.mem_append.mp membership with older | newest
    · exact consistent.inFlight other older
    · rw [List.mem_singleton.mp newest]
      exact hwrite
  shown := consistent.shown
  screens := consistent.screens

/-- Every step keeps consistency. -/
theorem Consistent.step (consistent : Consistent created s) {action : Action ι}
    (hstep : s.step? action = some t) : Consistent created t := by
  cases consistent.stepped hstep with
  | @choose device i j shown table played hne hshown htable wellFormed found =>
      apply consistent.setDevice
      · exact consistent.shown device
      · rintro screen ⟨⟩
        obtain ⟨hi, hj⟩ := wellFormed.lt_of_match found
        exact ⟨i, j, hne, hi, hj, wellFormed.ofCell i j played found⟩
  | @finish device a b screen shown table i j data finishing =>
      obtain ⟨hne, hi, hj, ofCell⟩ := finishing.openCell
      apply Consistent.issue
      · apply consistent.setDevice
        · exact ⟨_, rfl, finishing.id_eq, finishing.shown_afterFinish⟩
        · rintro finished ⟨⟩
          exact ⟨i, j, hne, hi, hj, ofCell.makeMatch a b⟩
      · exact ⟨rfl, finishing.version⟩
  | @commit index write hwrite =>
      have hmember := consistent.inFlight write (List.mem_of_getElem? hwrite)
      refine ⟨?_, ?_, consistent.shown, consistent.screens⟩
      · intro data membership
        rcases List.mem_append.mp membership with older | newest
        · exact consistent.versions data older
        · rw [List.mem_singleton.mp newest]
          exact hmember.2
      · intro other membership
        exact consistent.inFlight other (List.mem_of_mem_eraseIdx membership)
  | fail hwrite =>
      refine ⟨consistent.versions, ?_, consistent.shown, consistent.screens⟩
      intro other membership
      exact consistent.inFlight other (List.mem_of_mem_eraseIdx membership)
  | @deliver device version data received hle hdata hreceived =>
      apply consistent.setDevice
      · obtain ⟨stored, hdecode, hid, hwellFormed⟩ :=
          consistent.versions data (List.mem_of_getElem? hdata)
        rw [hreceived] at hdecode
        cases hdecode
        exact ⟨received, rfl, hid, hwellFormed⟩
      · exact consistent.screens device

omit [DecidableEq ι] in
/-- The system a competition starts with: its first version, with the new table,
and the copy of it that every device has decoded. -/
theorem StartsWith.initial (starts : StartsWith created s) :
    ∃ data first table, created.WellFormed first ∧ first.id = some s.documentID ∧
      CompetitionTable.init created.players = .ok table ∧
      first.competitionTable = some table.withoutDocId ∧
      Database.decodeCompetition ⟨s.documentID, data⟩ = some first ∧
      s = { documentID := s.documentID
            versions := [data]
            devices := fun _ => { competition := some first } } := by
  obtain ⟨_, ⟨title, qtyPlayers, date, players, ids, hinit⟩, documentID, hcreate⟩ := starts
  obtain ⟨hwellFormed, table, hnew, htable⟩ := Competition.wellFormed_init hinit
  obtain ⟨data, written⟩ := Database.exists_dictionary _ htable
  have hdecode := Database.decodeCompetition_dictionary written documentID
  rw [System.create, Database.sendCompetitionToDatabase_eq, written] at hcreate
  cases hcreate
  exact ⟨data, _, table, hwellFormed.readBack documentID, rfl, hnew,
    by simp [Competition.withoutDocId, htable], hdecode, by simp only [hdecode]⟩

omit [DecidableEq ι] in
theorem StartsWith.consistent (starts : StartsWith created s) : Consistent created s := by
  obtain ⟨data, first, _, hwellFormed, hid, _, _, hdecode, hs⟩ := starts.initial
  have hversion : Version created s.documentID data := ⟨first, hdecode, hid, hwellFormed⟩
  rw [hs]
  refine ⟨?_, ?_, ?_, ?_⟩
  · intro other membership
    rw [List.mem_singleton.mp membership]
    exact hversion
  · intro write membership
    cases membership
  · intro device
    exact ⟨first, rfl, hid, hwellFormed⟩
  · intro device screen hscreen
    cases hscreen

/-- Every reachable state is consistent. -/
theorem StartsWith.consistent_of_run {initial final : System ι}
    {actions : List (Action ι)} (starts : StartsWith created initial)
    (hrun : run? System.step? initial actions = some final) :
    Consistent created final :=
  run?_invariant (P := Consistent created)
    (fun consistent hstep => consistent.step hstep) starts.consistent hrun

/--
In every reachable state, every stored or written version and every copy on a
device is a well-formed version of the created competition, and the finish of
any open match with any scores stores it without trapping.
-/
theorem every_version_wellFormed {initial final : System ι} {actions : List (Action ι)}
    (starts : StartsWith created initial)
    (hrun : run? System.step? initial actions = some final) :
    (∀ data, (data ∈ final.versions ∨
        ∃ write ∈ final.inFlight, write.document.data = data) →
      ∃ stored, Database.decodeCompetition ⟨final.documentID, data⟩ = some stored ∧
        created.WellFormed stored) ∧
    (∀ device, ∃ shown, (final.devices device).competition = some shown ∧
      created.WellFormed shown) ∧
    ∀ device screen a b, (final.devices device).matchViewController = some screen →
      ∃ shown table finished, (final.devices device).competition = some shown ∧
        shown.competitionTable = some table ∧
        table.finishMatch (screen.finishMatch a b).played = .ok finished := by
  have consistent := starts.consistent_of_run hrun
  refine ⟨?_, ?_, ?_⟩
  · rintro data (older | ⟨write, membership, rfl⟩)
    · obtain ⟨stored, hdecode, _, hwellFormed⟩ := consistent.versions data older
      exact ⟨stored, hdecode, hwellFormed⟩
    · obtain ⟨_, stored, hdecode, _, hwellFormed⟩ := consistent.inFlight write membership
      exact ⟨stored, hdecode, hwellFormed⟩
  · intro device
    obtain ⟨shown, hshown, _, hwellFormed⟩ := consistent.shown device
    exact ⟨shown, hshown, hwellFormed⟩
  · intro device screen a b hscreen
    obtain ⟨shown, table, i, j, data, finishing, _⟩ :=
      consistent.finish (a := a) (b := b) hscreen
    obtain ⟨hne, hi, hj, ofCell⟩ := finishing.openCell
    exact ⟨shown, table, _, finishing.shown_eq, finishing.table_eq,
      finishing.wellFormed.finishMatch (ofCell.makeMatch a b) hi hj⟩

/-- Two devices finish two matches, and the second write commits first. -/
theorem every_version_wellFormed_two_devices :
    ∃ final, run? System.step? (opened Bool [.anna, .boris, .vera])
        [.choose true 0 1, .choose false 2 0, .finish true 1 0, .finish false 3 3,
         .commit 1, .deliver true 1, .finish true 0 5, .commit 0] = some final ∧
      ∀ device, ∃ shown, (final.devices device).competition = some shown ∧
        (cup [.anna, .boris, .vera]).WellFormed shown := by
  obtain ⟨final, hrun⟩ := Option.isSome_iff_exists.mp
    (show (run? System.step? (opened Bool [.anna, .boris, .vera])
        [.choose true 0 1, .choose false 2 0, .finish true 1 0, .finish false 3 3,
         .commit 1, .deliver true 1, .finish true 0 5, .commit 0]).isSome by
      decide +kernel)
  exact ⟨final, hrun, (every_version_wellFormed (startsWith_three Bool) hrun).2.1⟩

end AnyCompetition.Shared
