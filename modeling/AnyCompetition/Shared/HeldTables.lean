import AnyCompetition.Shared.Invariant

/-!
# The tables a system holds

A table is held in a version of the document, in a write in flight or in the
copy of a device.  A finish is the only step that produces a new table; every
other step only moves held tables.
-/

namespace AnyCompetition.Shared

open Json GuardedRun CompetitionViewController

variable {ι : Type} [DecidableEq ι] {created : Competition} {s t : System ι}

/-- A stored map holds the table that its reader finds in it. -/
def HoldsIn (documentID : String) (data : Fields) (table : CompetitionTable) : Prop :=
  ∃ competition, Database.decodeCompetition ⟨documentID, data⟩ = some competition ∧
    competition.competitionTable = some table

inductive Holds (s : System ι) (table : CompetitionTable) : Prop where
  | version {data : Fields} (membership : data ∈ s.versions)
      (holds : HoldsIn s.documentID data table)
  | inFlight {write : Write ι} (membership : write ∈ s.inFlight)
      (holds : HoldsIn s.documentID write.document.data table)
  | shown {device : ι} {competition : Competition}
      (shown : (s.devices device).competition = some competition)
      (holds : competition.competitionTable = some table)

/-- Every table held has the property. -/
def Everywhere (Q : CompetitionTable → Prop) (s : System ι) : Prop :=
  ∀ table, Holds s table → Q table

/-- The table held in a stored version is well formed. -/
theorem Version.wellFormed_of_holdsIn {documentID : String} {data : Fields}
    {table : CompetitionTable} (version : Version created documentID data)
    (holds : HoldsIn documentID data table) : table.WellFormed created.players := by
  obtain ⟨competition, hdecode, htable⟩ := holds
  obtain ⟨stored, hstored, _, hwellFormed⟩ := version
  rw [hdecode] at hstored
  cases hstored
  obtain ⟨found, hfound, wellFormed⟩ := hwellFormed.table
  rw [htable] at hfound
  cases hfound
  exact wellFormed

omit [DecidableEq ι] in
/-- Every table held is well formed. -/
theorem Consistent.wellFormed_of_holds (consistent : Consistent created s)
    {table : CompetitionTable} (held : Holds s table) : table.WellFormed created.players := by
  cases held with
  | version membership holds =>
      exact (consistent.versions _ membership).wellFormed_of_holdsIn holds
  | inFlight membership holds =>
      exact (consistent.inFlight _ membership).2.wellFormed_of_holdsIn holds
  | @shown device competition hshown htable =>
      obtain ⟨copy, hcopy, _, hwellFormed⟩ := consistent.shown device
      rw [hshown] at hcopy
      cases hcopy
      obtain ⟨inside, hinside, wellFormed⟩ := hwellFormed.table
      rw [htable] at hinside
      cases hinside
      exact wellFormed

omit [DecidableEq ι] in
/-- At the start the new table is the only one held. -/
theorem StartsWith.holds (starts : StartsWith created s) {table : CompetitionTable}
    (held : Holds s table) :
    ∃ new, CompetitionTable.init created.players = .ok new ∧ table = new.withoutDocId := by
  obtain ⟨data, first, new, _, _, hnew, hfirst, hdecode, hs⟩ := starts.initial
  refine ⟨new, hnew, ?_⟩
  rw [hs] at held
  cases held with
  | version membership holds =>
      obtain ⟨competition, hcompetition, htable⟩ := holds
      rw [List.mem_singleton.mp membership, hdecode] at hcompetition
      cases hcompetition
      rw [hfirst] at htable
      exact (Option.some.inj htable).symm
  | inFlight membership => cases membership
  | shown hshown htable =>
      cases hshown
      rw [hfirst] at htable
      exact (Option.some.inj htable).symm

/-- A change of one device brings no table but that of its new copy. -/
theorem holds_setDevice {device : ι} {next : Device} {table : CompetitionTable}
    (held : Holds (s.setDevice device next) table) :
    Holds s table ∨ ∃ competition, next.competition = some competition ∧
      competition.competitionTable = some table := by
  cases held with
  | version membership holds => exact Or.inl (.version membership holds)
  | inFlight membership holds => exact Or.inl (.inFlight membership holds)
  | @shown other competition hshown htable =>
      by_cases hother : other = device
      · subst hother
        rw [System.setDevice_same] at hshown
        exact Or.inr ⟨competition, hshown, htable⟩
      · rw [System.setDevice_other s next hother] at hshown
        exact Or.inl (.shown hshown htable)

section Finish

variable {device : ι} {a b : Int} {screen : MatchViewController} {shown : Competition}
  {table : CompetitionTable} {i j : Nat} {data : Fields}

/-- After a finish its device holds the new table. -/
theorem holds_afterFinish (s : System ι) (device : ι) (a b : Int)
    (screen : MatchViewController) (shown : Competition) (table : CompetitionTable)
    (i j : Nat) (data : Fields) :
    Holds (s.afterFinish device a b screen shown table i j data)
      (table.storeMatch i j (screen.played.makeMatch a b)) := by
  have hdevice := congrArg Device.competition (System.setDevice_same s device
    { s.devices device with
      competition := some { shown with
        competitionTable := some (table.storeMatch i j (screen.played.makeMatch a b)) }
      matchViewController := some (screen.finishMatch a b) })
  exact .shown hdevice rfl

/-- A finish brings its new table, to its device and to its write, and no other. -/
theorem Finishing.holds
    (finishing : Finishing created s device a b screen shown table i j data)
    {held : CompetitionTable}
    (hheld : Holds (s.afterFinish device a b screen shown table i j data) held) :
    Holds s held ∨ held = table.storeMatch i j (screen.played.makeMatch a b) ∨
      held = (table.storeMatch i j (screen.played.makeMatch a b)).withoutDocId := by
  cases hheld with
  | version membership holds => exact Or.inl (.version membership holds)
  | inFlight membership holds =>
      rcases List.mem_append.mp membership with older | newest
      · exact Or.inl (.inFlight older holds)
      · rw [List.mem_singleton.mp newest] at holds
        obtain ⟨competition, hcompetition, hcopy⟩ := holds
        have hdecode := finishing.data_eq.symm.trans hcompetition
        cases hdecode
        cases hcopy
        exact Or.inr (Or.inr rfl)
  | @shown other competition hshown hcopy =>
      rcases holds_setDevice (.shown hshown hcopy) with before | ⟨_, hnew, hcopy⟩
      · exact Or.inl before
      · cases hnew
        cases hcopy
        exact Or.inr (Or.inl rfl)

end Finish

/-- A property of all tables held is kept by every step but a finish, and by a
finish when its new table has the property, with document ids and without. -/
theorem Stepped.everywhere {Q : CompetitionTable → Prop} {action : Action ι}
    (stepped : Stepped created s action t) (everywhere : Everywhere Q s)
    (new : ∀ device a b screen shown table i j data,
      action = .finish device a b →
      Finishing created s device a b screen shown table i j data →
      Q (table.storeMatch i j (screen.played.makeMatch a b)) ∧
        Q (table.storeMatch i j (screen.played.makeMatch a b)).withoutDocId) :
    Everywhere Q t := by
  intro held hheld
  cases stepped with
  | choose hne hshown htable wellFormed found =>
      rcases holds_setDevice hheld with before | ⟨competition, hcompetition, hcopy⟩
      · exact everywhere held before
      · exact everywhere held (.shown hcompetition hcopy)
  | finish finishing =>
      obtain ⟨hnew, hstored⟩ := new _ _ _ _ _ _ _ _ _ rfl finishing
      rcases finishing.holds hheld with before | rfl | rfl
      · exact everywhere held before
      · exact hnew
      · exact hstored
  | @commit index write hwrite =>
      cases hheld with
      | version membership holds =>
          rcases List.mem_append.mp membership with older | newest
          · exact everywhere held (.version older holds)
          · rw [List.mem_singleton.mp newest] at holds
            exact everywhere held (.inFlight (List.mem_of_getElem? hwrite) holds)
      | inFlight membership holds =>
          exact everywhere held (.inFlight (List.mem_of_mem_eraseIdx membership) holds)
      | shown hshown hcopy => exact everywhere held (.shown hshown hcopy)
  | fail hwrite =>
      cases hheld with
      | version membership holds => exact everywhere held (.version membership holds)
      | inFlight membership holds =>
          exact everywhere held (.inFlight (List.mem_of_mem_eraseIdx membership) holds)
      | shown hshown hcopy => exact everywhere held (.shown hshown hcopy)
  | deliver hle hdata hreceived =>
      rcases holds_setDevice hheld with before | ⟨competition, hcompetition, hcopy⟩
      · exact everywhere held before
      · cases hcompetition
        exact everywhere held
          (.version (List.mem_of_getElem? hdata) ⟨_, hreceived, hcopy⟩)

end AnyCompetition.Shared
