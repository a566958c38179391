import AnyCompetition.Shared.HeldTables

/-!
# Where results come from

Writes overwrite each other and snapshots bring old versions back, but no version, no
copy and no screen ever has a result that was not entered: each recorded score was
typed into the screen of an open match of its pair and finished there.
-/

namespace AnyCompetition

namespace Match

/-- The match is done, and player `k` has played `a : b` against player `l` in it. -/
def Records (played : Match) (k l : Nat) (a b : Int) : Prop :=
  played.isDone = true ∧
    ((played.matchIndex = ⟨k, l⟩ ∧ played.scorePlayer1 = a ∧ played.scorePlayer2 = b) ∨
      (played.matchIndex = ⟨l, k⟩ ∧ played.scorePlayer1 = b ∧ played.scorePlayer2 = a))

variable {played : Match} {k l : Nat} {a b : Int}

/-- Both cells of a pair record the same result. -/
theorem records_makeMirrorMatch (played : Match) (k l : Nat) (a b : Int) :
    played.makeMirrorMatch.Records k l a b ↔ played.Records k l a b := by
  unfold Records
  cases played with
  | mk player1 player2 isDone isWinned scorePlayer1 scorePlayer2 matchIndex =>
      cases matchIndex with
      | mk indexOfPlayer indexOfMatch =>
          simp only [makeMirrorMatch, init, MatchIndex.mk.injEq]
          constructor
          · rintro ⟨done, ⟨⟨hl, hk⟩, hb, ha⟩ | ⟨⟨hk, hl⟩, ha, hb⟩⟩
            · exact ⟨done, Or.inr ⟨⟨hk, hl⟩, ha, hb⟩⟩
            · exact ⟨done, Or.inl ⟨⟨hl, hk⟩, hb, ha⟩⟩
          · rintro ⟨done, ⟨⟨hk, hl⟩, ha, hb⟩ | ⟨⟨hl, hk⟩, hb, ha⟩⟩
            · exact ⟨done, Or.inr ⟨⟨hl, hk⟩, hb, ha⟩⟩
            · exact ⟨done, Or.inl ⟨⟨hk, hl⟩, ha, hb⟩⟩

theorem records_withoutDocId (played : Match) (k l : Nat) (a b : Int) :
    played.withoutDocId.Records k l a b ↔ played.Records k l a b :=
  Iff.rfl

end Match

/-- A cell of the table records the result. -/
def CompetitionTable.Records (table : CompetitionTable) (k l : Nat) (a b : Int) : Prop :=
  ∃ i j played, table.match? i j = some played ∧ played.Records k l a b

namespace CompetitionTable

theorem records_withoutDocId {table : CompetitionTable} {k l : Nat} {a b : Int}
    (records : table.withoutDocId.Records k l a b) : table.Records k l a b := by
  obtain ⟨i, j, played, found, hrecords⟩ := records
  rw [match?_withoutDocId] at found
  obtain ⟨source, hsource, rfl⟩ := Option.map_eq_some_iff.mp found
  exact ⟨i, j, source, hsource, (source.records_withoutDocId k l a b).mp hrecords⟩

/-- A table that stores a match records what it recorded and what the match records. -/
theorem records_storeMatch {players : List User} {table : CompetitionTable} {i j k l : Nat}
    {played : Match} {a b : Int} (wellFormed : table.WellFormed players)
    (hi : i < players.length) (hj : j < players.length)
    (records : (table.storeMatch i j played).Records k l a b) :
    table.Records k l a b ∨ played.Records k l a b := by
  obtain ⟨row, column, found, hfound, hrecords⟩ := records
  rw [match?_storeMatch wellFormed.square played hi hj] at hfound
  split at hfound
  · cases hfound
    exact Or.inr ((played.records_makeMirrorMatch k l a b).mp hrecords)
  · split at hfound
    · cases hfound
      exact Or.inr hrecords
    · exact Or.inl ⟨row, column, found, hfound, hrecords⟩

/-- A new table records nothing. -/
theorem not_records_init {players : List User} {new : CompetitionTable}
    (created : init players = .ok new) (k l : Nat) (a b : Int) : ¬ new.Records k l a b := by
  rintro ⟨i, j, played, found, done, _⟩
  rw [match?_init created] at found
  obtain ⟨player, _, hmap⟩ := Option.bind_eq_some_iff.mp found
  obtain ⟨opponent, _, rfl⟩ := Option.map_eq_some_iff.mp hmap
  cases done

end CompetitionTable

namespace Shared

open GuardedRun CompetitionViewController

variable {ι : Type} [DecidableEq ι] {created : Competition} {s t : System ι}
  {k l : Nat} {c d : Int}

/-- Some table held or some open screen records the result. -/
def Recorded (s : System ι) (k l : Nat) (c d : Int) : Prop :=
  (∃ table, Holds s table ∧ table.Records k l c d) ∨
    ∃ device screen, (s.devices device).matchViewController = some screen ∧
      screen.played.Records k l c d

/-- The action finishes a match that is still open on the screen of its device, with
scores that make it record the result. -/
def Enters (s : System ι) (action : Action ι) (k l : Nat) (c d : Int) : Prop :=
  ∃ device a b screen, action = .finish device a b ∧
    (s.devices device).matchViewController = some screen ∧ screen.played.isDone = false ∧
    (screen.played.makeMatch a b).Records k l c d

/-- A change of one device records nothing but on its new screen and in its new copy. -/
theorem recorded_setDevice {device : ι} {next : Device}
    (recorded : Recorded (s.setDevice device next) k l c d) :
    Recorded s k l c d ∨
      (∃ competition table, next.competition = some competition ∧
        competition.competitionTable = some table ∧ table.Records k l c d) ∨
      ∃ screen, next.matchViewController = some screen ∧ screen.played.Records k l c d := by
  rcases recorded with ⟨table, held, records⟩ | ⟨other, screen, hscreen, records⟩
  · rcases holds_setDevice held with before | ⟨competition, hcompetition, htable⟩
    · exact Or.inl (Or.inl ⟨table, before, records⟩)
    · exact Or.inr (Or.inl ⟨competition, table, hcompetition, htable, records⟩)
  · by_cases hother : other = device
    · subst hother
      rw [System.setDevice_same] at hscreen
      exact Or.inr (Or.inr ⟨screen, hscreen, records⟩)
    · rw [System.setDevice_other s next hother] at hscreen
      exact Or.inl (Or.inr ⟨other, screen, hscreen, records⟩)

/-- Only the finish of an open match brings a result that was not recorded. -/
theorem Consistent.enters (consistent : Consistent created s) {action : Action ι}
    (hstep : s.step? action = some t) (absent : ¬ Recorded s k l c d)
    (recorded : Recorded t k l c d) : Enters s action k l c d := by
  have hunheld : ∀ table, Holds s table → ¬ table.Records k l c d :=
    fun table held records => absent (Or.inl ⟨table, held, records⟩)
  have hunopened : ∀ device screen, (s.devices device).matchViewController = some screen →
      ¬ screen.played.Records k l c d :=
    fun device screen hscreen records => absent (Or.inr ⟨device, screen, hscreen, records⟩)
  have stepped := consistent.stepped hstep
  cases stepped with
  | @choose device i j shown table played hne hshown htable wellFormed found =>
      rcases recorded_setDevice recorded with
        before | ⟨competition, copy, hcompetition, hcopy, records⟩ | ⟨screen, ⟨⟩, records⟩
      · exact absurd before absent
      · exact absurd records (hunheld copy (.shown hcompetition hcopy))
      · exact absurd ⟨i, j, played, found, records⟩ (hunheld table (.shown hshown htable))
  | @finish device a b screen shown table i j data finishing =>
      obtain ⟨_, hi, hj, _⟩ := finishing.openCell
      -- the new match is the only one that can record the result
      have hplayed : (screen.played.makeMatch a b).Records k l c d := by
        rcases recorded with ⟨held, hheld, records⟩ | ⟨other, finished, hfinished, records⟩
        · have hnew : (table.storeMatch i j (screen.played.makeMatch a b)).Records k l c d := by
            rcases finishing.holds hheld with before | rfl | rfl
            · exact absurd records (hunheld held before)
            · exact records
            · exact CompetitionTable.records_withoutDocId records
          rcases CompetitionTable.records_storeMatch finishing.wellFormed hi hj hnew with
            before | hplayed
          · exact absurd before
              (hunheld table (.shown finishing.shown_eq finishing.table_eq))
          · exact hplayed
        · rcases recorded_setDevice (s := s) (Or.inr ⟨other, finished, hfinished, records⟩) with
            before | ⟨competition, copy, ⟨⟩, hcopy, hrecords⟩ | ⟨_, ⟨⟩, hrecords⟩
          · exact absurd before absent
          · cases hcopy
            rcases CompetitionTable.records_storeMatch finishing.wellFormed hi hj hrecords with
              before | hplayed
            · exact absurd before
                (hunheld table (.shown finishing.shown_eq finishing.table_eq))
            · exact hplayed
          · exact hrecords
      refine ⟨device, a, b, screen, rfl, finishing.screen_eq, ?_, hplayed⟩
      -- a done match would have recorded the result before
      cases hdone : screen.played.isDone with
      | false => rfl
      | true =>
          rw [Match.makeMatch_of_done hdone] at hplayed
          exact absurd hplayed (hunopened device screen finishing.screen_eq)
  | commit hwrite =>
      rcases recorded with ⟨table, held, records⟩ | opened
      · refine absurd records ?_
        exact (consistent.stepped hstep).everywhere
          (Q := fun table => ¬ table.Records k l c d) hunheld
          (fun _ _ _ _ _ _ _ _ _ hfinish => nomatch hfinish) table held
      · exact absurd (Or.inr opened) absent
  | fail hwrite =>
      rcases recorded with ⟨table, held, records⟩ | opened
      · refine absurd records ?_
        exact (consistent.stepped hstep).everywhere
          (Q := fun table => ¬ table.Records k l c d) hunheld
          (fun _ _ _ _ _ _ _ _ _ hfinish => nomatch hfinish) table held
      · exact absurd (Or.inr opened) absent
  | @deliver device version data received hle hdata hreceived =>
      rcases recorded_setDevice recorded with
        before | ⟨competition, copy, ⟨⟩, hcopy, records⟩ | ⟨screen, hscreen, records⟩
      · exact absurd before absent
      · exact absurd records
          (hunheld copy (.version (List.mem_of_getElem? hdata) ⟨_, hreceived, hcopy⟩))
      · exact absurd records (hunopened device screen hscreen)

omit [DecidableEq ι] in
/-- At the start nothing is recorded. -/
theorem StartsWith.not_recorded (starts : StartsWith created s) : ¬ Recorded s k l c d := by
  rintro (⟨table, held, records⟩ | ⟨device, screen, hscreen, _⟩)
  · obtain ⟨new, hnew, rfl⟩ := starts.holds held
    exact CompetitionTable.not_records_init hnew k l c d
      (CompetitionTable.records_withoutDocId records)
  · obtain ⟨_, _, _, _, _, _, _, _, hs⟩ := starts.initial
    rw [hs] at hscreen
    cases hscreen

omit [DecidableEq ι] in
/-- The scores entered are those of the result, in the order of the screen. -/
theorem Enters.scores {action : Action ι} (enters : Enters s action k l c d) :
    ∃ device a b screen, action = .finish device a b ∧
      (s.devices device).matchViewController = some screen ∧ screen.played.isDone = false ∧
      ((screen.played.matchIndex = ⟨k, l⟩ ∧ c = a ∧ d = b) ∨
        (screen.played.matchIndex = ⟨l, k⟩ ∧ c = b ∧ d = a)) := by
  obtain ⟨device, a, b, screen, haction, hscreen, hopen, _, hscores⟩ := enters
  rw [Match.makeMatch_matchIndex, Match.makeMatch_of_not_done hopen] at hscores
  refine ⟨device, a, b, screen, haction, hscreen, hopen, ?_⟩
  rcases hscores with ⟨hcell, hfirst, hsecond⟩ | ⟨hcell, hfirst, hsecond⟩
  · exact Or.inl ⟨hcell, hfirst.symm, hsecond.symm⟩
  · exact Or.inr ⟨hcell, hsecond.symm, hfirst.symm⟩

/-- A done cell of a table held has been entered by a step of the run. -/
theorem StartsWith.exists_enters {initial final : System ι} {actions : List (Action ι)}
    (starts : StartsWith created initial)
    (hrun : run? System.step? initial actions = some final) {table : CompetitionTable}
    (held : Holds final table) {i j : Nat} {played : Match}
    (found : table.match? i j = some played) (done : played.isDone = true) :
    ∃ front action rest before, actions = front ++ action :: rest ∧
      run? System.step? initial front = some before ∧
      Enters before action i j played.scorePlayer1 played.scorePlayer2 := by
  have hindex : played.matchIndex = ⟨i, j⟩ :=
    (((starts.consistent_of_run hrun).wellFormed_of_holds held).ofCell i j played
      found).matchIndex
  have recorded : Recorded final i j played.scorePlayer1 played.scorePlayer2 :=
    Or.inl ⟨table, held, i, j, played, found, done, Or.inl ⟨hindex, rfl, rfl⟩⟩
  obtain ⟨front, action, rest, before, after, hactions, hfront, absent, hstep, hafter⟩ :=
    exists_step_of_run? (P := fun s => Recorded s i j _ _) starts.not_recorded hrun recorded
  exact ⟨front, action, rest, before, hactions, hfront,
    (starts.consistent_of_run hfront).enters hstep absent hafter⟩

/--
In every reachable state, every done cell of every table that is stored, in flight or
shown on a device has scores that some device entered earlier in the run, on the screen
of an open match of this pair: in the order of the cell, or reversed when the screen
was opened from the mirrored cell.
-/
theorem result_was_entered {initial final : System ι} {actions : List (Action ι)}
    (starts : StartsWith created initial)
    (hrun : run? System.step? initial actions = some final) {table : CompetitionTable}
    (held : Holds final table) {i j : Nat} {played : Match}
    (found : table.match? i j = some played) (done : played.isDone = true) :
    ∃ front rest before device a b screen, actions = front ++ .finish device a b :: rest ∧
      run? System.step? initial front = some before ∧
      (before.devices device).matchViewController = some screen ∧
      screen.played.isDone = false ∧
      ((screen.played.matchIndex = ⟨i, j⟩ ∧ played.scorePlayer1 = a ∧
          played.scorePlayer2 = b) ∨
        (screen.played.matchIndex = ⟨j, i⟩ ∧ played.scorePlayer1 = b ∧
          played.scorePlayer2 = a)) := by
  obtain ⟨front, action, rest, before, rfl, hfront, enters⟩ :=
    starts.exists_enters hrun held found done
  obtain ⟨device, a, b, screen, rfl, hscreen, hopen, hscores⟩ := enters.scores
  exact ⟨front, rest, before, device, a, b, screen, rfl, hfront, hscreen, hopen, hscores⟩

/-- A device receives a result that another device has entered in the mirrored cell. -/
theorem result_was_entered_on_other_device :
    let actions : List (Action Bool) :=
      [.choose true 0 1, .finish true 2 5, .commit 0, .deliver false 1]
    ∃ final table played, run? System.step? (opened Bool [.anna, .boris]) actions = some final ∧
      Holds final table ∧ table.match? 1 0 = some played ∧ played.isDone = true ∧
      ∃ front rest device a b, actions = front ++ Action.finish device a b :: rest ∧
        (played.scorePlayer1 = a ∧ played.scorePlayer2 = b ∨
          played.scorePlayer1 = b ∧ played.scorePlayer2 = a) := by
  intro actions
  have hcheck : ((run? System.step? (opened Bool [.anna, .boris]) actions).bind fun final =>
      (final.devices false).competition.bind fun shown =>
        shown.competitionTable.bind fun table =>
          (table.match? 1 0).map fun played => (table, played)).any
      (fun found => found.2.isDone) = true := by
    decide +kernel
  obtain ⟨⟨table, played⟩, hfound, done⟩ := (Option.any_eq_true _ _).mp hcheck
  obtain ⟨final, hrun, hrest⟩ := Option.bind_eq_some_iff.mp hfound
  obtain ⟨shown, hshown, hrest⟩ := Option.bind_eq_some_iff.mp hrest
  obtain ⟨_, htable, hrest⟩ := Option.bind_eq_some_iff.mp hrest
  obtain ⟨_, found, hpair⟩ := Option.map_eq_some_iff.mp hrest
  cases hpair
  have held : Holds final table := .shown hshown htable
  obtain ⟨front, rest, before, device, a, b, screen, hactions, _, _, _, hscores⟩ :=
    result_was_entered (startsWith_two Bool) hrun held found done
  exact ⟨final, table, played, hrun, held, found, done, front, rest, device, a, b, hactions,
    hscores.imp And.right And.right⟩

end Shared

end AnyCompetition
