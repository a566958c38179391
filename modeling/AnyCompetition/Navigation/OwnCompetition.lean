import AnyCompetition.Navigation.App
import AnyCompetition.Shared.Invariant

/-!
# The competition of the screen

The static competition stays the one of the screen on top exactly when every
snapshot delivered meanwhile is of that competition.  Then its results are
stored and written where they belong, and no index of the screen traps.
-/

namespace AnyCompetition.Navigation

open Json Trap GuardedRun CompetitionViewController CompetitionTableView

/-- The competition that each document was created with. -/
abbrev Collection := String → Option Competition

/-- A version of a competition of the collection, with its id. -/
def OfCollection (collection : Collection) (competition : Competition) : Prop :=
  ∃ documentID created, competition.id = some documentID ∧
    collection documentID = some created ∧ created.WellFormed competition

/-- A stored map of a document of the collection. -/
def StoredVersion (collection : Collection) (documentID : String) (data : Fields) : Prop :=
  ∃ created, collection documentID = some created ∧
    Shared.Version created documentID data

/-- The app before anything has been opened; the documents of the collection
have any versions. -/
structure Launched (collection : Collection) (initial : App) : Prop where
  fresh : initial = { versions := initial.versions }
  versions : ∀ documentID data, data ∈ initial.versions documentID →
    StoredVersion collection documentID data

/-- Every competition the app holds or stores is a version of its collection, and
the open match belongs to the competition pressed. -/
structure Sound (collection : Collection) (s : App) : Prop where
  versions : ∀ documentID data, data ∈ s.versions documentID →
    StoredVersion collection documentID data
  competitions : ∀ competition ∈ s.competitions, OfCollection collection competition
  shown : ∀ competition, s.competition = some competition →
    OfCollection collection competition
  screen : ∀ screen, s.screen = some screen → ∃ documentID created,
    screen.competitionId = some documentID ∧ collection documentID = some created ∧
    screen.qty = created.players.length ∧
    ∀ opened, screen.matchViewController = some opened →
      ∃ i j, Shared.OpenCell created opened i j
  inFlight : ∀ document ∈ s.inFlight,
    StoredVersion collection document.documentID document.data

/-- While the screen of a competition is on top, the static competition is that
one; finished matches have been stored and written there; and no cell, tap or
finish of the screen traps. -/
structure InPlace (s : App) : Prop where
  shown : ∀ screen, s.screen = some screen →
    ∃ shown, s.competition = some shown ∧ shown.id = screen.competitionId
  finished : ∀ entry ∈ s.finished, entry.storedIn = entry.tapped ∧
    some entry.document.documentID = entry.tapped
  cells : ∀ screen, s.screen = some screen → ∀ i j : Nat, i < screen.qty → j < screen.qty →
    (∃ cell, cellForItemAt s.competition i j = .ok cell) ∧
    (∃ cell, scoreForItemAt s.competition i = .ok cell) ∧
    ∃ opened, chooseMatch s.competition i j = .ok (some opened)
  finishes : ∀ screen opened a b, s.screen = some screen →
    screen.matchViewController = some opened →
    ∃ stored, winning s.competition (opened.finishMatch a b).played = .ok stored

/-- A snapshot delivered while the screen of a competition is on top is of that
competition. -/
def SnapshotOfTop (s : App) : Action → Prop
  | .deliver documentID _ => ∀ screen, s.screen = some screen →
      screen.competitionId = some documentID
  | _ => True

variable {collection : Collection} {s t : App}

/-! ## Indices -/

theorem cellForItemAt_ok {shown : Competition} {table : CompetitionTable} {i j : Nat}
    {played : Match} (hasTable : shown.competitionTable = some table)
    (found : table.match? i j = some played) :
    ∃ cell, cellForItemAt (some shown) i j = .ok cell := by
  obtain ⟨rowCells, hcells, hplayed⟩ := Option.bind_eq_some_iff.mp found
  rw [CompetitionTable.cells, List.getElem?_map] at hcells
  obtain ⟨row, hrow, rfl⟩ := Option.map_eq_some_iff.mp hcells
  simp only [cellForItemAt, unwrap_some, hasTable, bind, Except.bind,
    element_of_getElem? hrow, element_of_getElem? hplayed]
  exact ⟨_, rfl⟩

/-- What is known of the screen on top when the static competition is its own. -/
structure OnScreen (collection : Collection) (s : App) (screen : CompetitionScreen)
    (documentID : String) (created shown : Competition) (table : CompetitionTable) :
    Prop where
  shown_eq : s.competition = some shown
  id_eq : shown.id = some documentID
  pressed : screen.competitionId = some documentID
  created_eq : collection documentID = some created
  shown_wellFormed : created.WellFormed shown
  table_eq : shown.competitionTable = some table
  wellFormed : table.WellFormed created.players
  qty : screen.qty = created.players.length
  opened : ∀ opened, screen.matchViewController = some opened →
    ∃ i j, Shared.OpenCell created opened i j

theorem Sound.onScreen (sound : Sound collection s) {screen : CompetitionScreen}
    (hscreen : s.screen = some screen)
    (hshown : ∃ shown, s.competition = some shown ∧ shown.id = screen.competitionId) :
    ∃ documentID created shown table,
      OnScreen collection s screen documentID created shown table := by
  obtain ⟨shown, hcompetition, hid⟩ := hshown
  obtain ⟨documentID, created, hpressed, hcreated, hqty, hopened⟩ :=
    sound.screen screen hscreen
  obtain ⟨other, version, hother, hversion, hwellFormed⟩ := sound.shown shown hcompetition
  rw [hid, hpressed] at hother
  cases hother
  rw [hcreated] at hversion
  cases hversion
  obtain ⟨table, htable, wellFormed⟩ := hwellFormed.table
  exact ⟨documentID, created, shown, table, hcompetition, hid.trans hpressed, hpressed,
    hcreated, hwellFormed, htable, wellFormed, hqty, hopened⟩

/-- A match of the screen is one of its competition. -/
theorem OnScreen.exists_chooseMatch {screen : CompetitionScreen} {documentID : String}
    {created shown : Competition} {table : CompetitionTable}
    (onScreen : OnScreen collection s screen documentID created shown table) {i j : Nat}
    (hi : i < screen.qty) (hj : j < screen.qty) :
    ∃ played, i < created.players.length ∧ j < created.players.length ∧
      table.match? i j = some played ∧
      chooseMatch s.competition i j = .ok (some { played }) := by
  rw [onScreen.qty] at hi hj
  have hrow : i < created.players.length := by omega
  have hcolumn : j < created.players.length := by omega
  obtain ⟨played, found⟩ := onScreen.wellFormed.exists_match hrow hcolumn
  rw [onScreen.shown_eq]
  exact ⟨played, hrow, hcolumn, found, chooseMatch_eq onScreen.table_eq found⟩

/-- The finish of the open match stores it in the competition of the screen and
writes a version of that competition. -/
theorem OnScreen.winning {screen : CompetitionScreen} {documentID : String}
    {created shown : Competition} {table : CompetitionTable}
    (onScreen : OnScreen collection s screen documentID created shown table)
    {opened : MatchViewController} (hopened : screen.matchViewController = some opened)
    (a b : Int) :
    ∃ next data, winning s.competition (opened.finishMatch a b).played =
        .ok (next, ⟨documentID, data⟩) ∧
      next.id = some documentID ∧ created.WellFormed next ∧
      Shared.Version created documentID data ∧
      ∃ i j, Shared.OpenCell created (opened.finishMatch a b) i j := by
  obtain ⟨i, j, hne, hi, hj, ofCell⟩ := onScreen.opened opened hopened
  have ofCell' := ofCell.makeMatch a b
  obtain ⟨data, hwinning, hdata⟩ :=
    winning_eq onScreen.table_eq onScreen.id_eq onScreen.wellFormed ofCell' hi hj
  have hnext : created.WellFormed { shown with
      competitionTable := some (table.storeMatch i j (opened.played.makeMatch a b)) } :=
    { onScreen.shown_wellFormed with
      table := ⟨_, rfl, onScreen.wellFormed.storeMatch ofCell' hi hj hne⟩ }
  rw [← onScreen.shown_eq] at hwinning
  exact ⟨_, data, hwinning, onScreen.id_eq, hnext,
    ⟨_, hdata, rfl, hnext.readBack documentID⟩, i, j, hne, hi, hj, ofCell'⟩

/-- In a sound state whose static competition is that of the screen nothing on
the screen traps. -/
theorem Sound.inPlace (sound : Sound collection s)
    (shown : ∀ screen, s.screen = some screen →
      ∃ shown, s.competition = some shown ∧ shown.id = screen.competitionId)
    (finished : ∀ entry ∈ s.finished, entry.storedIn = entry.tapped ∧
      some entry.document.documentID = entry.tapped) : InPlace s := by
  refine ⟨shown, finished, ?_, ?_⟩
  · intro screen hscreen i j hi hj
    obtain ⟨documentID, created, current, table, onScreen⟩ :=
      sound.onScreen hscreen (shown screen hscreen)
    obtain ⟨played, hrow, _, found, hchoose⟩ := onScreen.exists_chooseMatch hi hj
    rw [onScreen.shown_eq] at hchoose ⊢
    refine ⟨cellForItemAt_ok onScreen.table_eq found, ?_, ⟨_, hchoose⟩⟩
    have hpoints := CompetitionTable.calculatePointsOfPlayer_eq onScreen.wellFormed.square
      onScreen.wellFormed.square hrow
    simp only [scoreForItemAt, onScreen.table_eq, unwrap_some, bind, Except.bind, hpoints]
    exact ⟨_, rfl⟩
  · intro screen opened a b hscreen hopened
    obtain ⟨documentID, created, current, table, onScreen⟩ :=
      sound.onScreen hscreen (shown screen hscreen)
    obtain ⟨next, data, hwinning, _⟩ := onScreen.winning hopened a b
    exact ⟨_, hwinning⟩

/-! ## Steps -/

/-- All that a step can do. -/
inductive Stepped (s : App) : Action → App → Prop where
  | receiveNothing {chosen : List (String × Nat)} : Stepped s (.receiveList chosen) s
  | receiveList {chosen : List (String × Nat)} :
      Stepped s (.receiveList chosen) { s with
        competitions :=
          App.sortedByDate (Database.getAllCompetitions (s.documents chosen)) }
  | pressCompetition {index : Nat} {chosen : Competition} {table : CompetitionTable}
      (closed : s.screen = none) (hchosen : s.competitions[index]? = some chosen)
      (htable : chosen.competitionTable = some table) :
      Stepped s (.pressCompetition index) { s with
        competition := some chosen
        screen := some { competitionId := chosen.id, qty := table.qtyPlayers }
        listeners := s.listeners ++ chosen.id.toList }
  | back : Stepped s .back { s with screen := none }
  | chooseNothing {i j : Nat} : Stepped s (.choose i j) s
  | choose {i j : Nat} {screen : CompetitionScreen} {opened : MatchViewController}
      (hscreen : s.screen = some screen) (hne : i ≠ j)
      (hi : i < screen.qty) (hj : j < screen.qty)
      (hopened : chooseMatch s.competition i j = .ok (some opened)) :
      Stepped s (.choose i j) { s with
        screen := some { screen with matchViewController := some opened } }
  | finish {a b : Int} {screen : CompetitionScreen} {opened : MatchViewController}
      {competition : Competition} {document : Document}
      (hscreen : s.screen = some screen)
      (hopened : screen.matchViewController = some opened)
      (hwinning : winning s.competition (opened.finishMatch a b).played =
        .ok (competition, document)) :
      Stepped s (.finish a b) { s with
        competition := some competition
        screen := some { screen with
          matchViewController := some (opened.finishMatch a b) }
        inFlight := s.inFlight ++ [document]
        finished := s.finished ++ [⟨screen.competitionId, competition.id, document⟩] }
  | dismiss {screen : CompetitionScreen} (hscreen : s.screen = some screen) :
      Stepped s .dismiss { s with screen := some { screen with matchViewController := none } }
  | deliver {documentID : String} {version : Nat} {data : Fields}
      (hdata : (s.versions documentID)[version]? = some data) :
      Stepped s (.deliver documentID version) { s with
        competition := receiveSnapshot s.competition ⟨documentID, data⟩ }
  | commit {index : Nat} {document : Document}
      (hdocument : s.inFlight[index]? = some document) :
      Stepped s (.commit index) { s with
        versions := Function.update s.versions document.documentID
          (s.versions document.documentID ++ [document.data])
        inFlight := s.inFlight.eraseIdx index }
  | fail {index : Nat} : Stepped s (.fail index) { s with
      inFlight := s.inFlight.eraseIdx index }

theorem stepped_of_step {action : Action} (hstep : s.step? action = some t) :
    Stepped s action t := by
  cases action with
  | receiveList chosen =>
      simp only [App.step?, Option.some.injEq] at hstep
      split at hstep
      · subst hstep
        exact .receiveNothing
      · subst hstep
        exact .receiveList
  | pressCompetition index =>
      cases hscreen : s.screen with
      | some screen => simp [App.step?, hscreen] at hstep
      | none =>
          simp only [App.step?, hscreen, Option.isSome_none, Bool.false_eq_true,
            if_false] at hstep
          obtain ⟨chosen, hchosen, hopen⟩ := Option.bind_eq_some_iff.mp hstep
          obtain ⟨table, htable, rfl⟩ := Option.map_eq_some_iff.mp hopen
          exact .pressCompetition hscreen hchosen htable
  | back =>
      rcases hscreen : s.screen with _ | ⟨competitionId, qty, _ | opened⟩
      · simp [App.step?, hscreen] at hstep
      · simp only [App.step?, hscreen, Option.some.injEq] at hstep
        subst hstep
        exact .back
      · simp [App.step?, hscreen] at hstep
  | choose i j =>
      rcases hscreen : s.screen with _ | ⟨competitionId, qty, _ | opened⟩
      · simp [App.step?, hscreen] at hstep
      · simp only [App.step?, hscreen] at hstep
        split at hstep
        · cases hstep
        · rename_i hcell
          obtain ⟨hne, hinside⟩ := not_or.mp hcell
          obtain ⟨hi, hj⟩ := not_not.mp hinside
          cases hopened : chooseMatch s.competition i j with
          | error trap => simp [hopened] at hstep
          | ok result =>
              cases result with
              | none =>
                  simp only [hopened, Option.some.injEq] at hstep
                  subst hstep
                  exact .chooseNothing
              | some opened =>
                  simp only [hopened, Option.some.injEq] at hstep
                  subst hstep
                  exact .choose hscreen hne hi hj hopened
      · simp [App.step?, hscreen] at hstep
  | finish a b =>
      rcases hscreen : s.screen with _ | ⟨competitionId, qty, _ | opened⟩
      · simp [App.step?, hscreen] at hstep
      · simp [App.step?, hscreen] at hstep
      · simp only [App.step?, hscreen] at hstep
        cases hwinning : winning s.competition (opened.finishMatch a b).played with
        | error trap => simp [hwinning] at hstep
        | ok stored =>
            obtain ⟨competition, document⟩ := stored
            simp only [hwinning, Option.some.injEq] at hstep
            subst hstep
            exact .finish hscreen rfl hwinning
  | dismiss =>
      rcases hscreen : s.screen with _ | ⟨competitionId, qty, _ | opened⟩
      · simp [App.step?, hscreen] at hstep
      · simp [App.step?, hscreen] at hstep
      · simp only [App.step?, hscreen, Option.some.injEq] at hstep
        subst hstep
        exact .dismiss hscreen
  | deliver documentID version =>
      by_cases hlistener : documentID ∈ s.listeners
      · simp only [App.step?, hlistener, if_true] at hstep
        obtain ⟨data, hdata, rfl⟩ := Option.map_eq_some_iff.mp hstep
        exact .deliver hdata
      · simp [App.step?, hlistener] at hstep
  | commit index =>
      simp only [App.step?] at hstep
      obtain ⟨document, hdocument, rfl⟩ := Option.map_eq_some_iff.mp hstep
      exact .commit hdocument
  | fail index =>
      by_cases hindex : index < s.inFlight.length
      · simp only [App.step?, hindex, if_true, Option.some.injEq] at hstep
        subst hstep
        exact .fail
      · simp [App.step?, hindex] at hstep

/-- A stored version reads back as a version of the collection, with its id. -/
theorem StoredVersion.decode {documentID : String} {data : Fields}
    (version : StoredVersion collection documentID data) :
    ∃ competition, Database.decodeCompetition ⟨documentID, data⟩ = some competition ∧
      competition.id = some documentID ∧ OfCollection collection competition := by
  obtain ⟨created, hcreated, competition, hdecode, hid, hwellFormed⟩ := version
  exact ⟨competition, hdecode, hid, documentID, created, hid, hcreated, hwellFormed⟩

theorem Sound.of_mem_documents (sound : Sound collection s) {chosen : List (String × Nat)}
    {document : Document} (membership : document ∈ s.documents chosen) :
    StoredVersion collection document.documentID document.data := by
  obtain ⟨entry, _, hentry⟩ := List.mem_filterMap.mp membership
  obtain ⟨data, hdata, rfl⟩ := Option.map_eq_some_iff.mp hentry
  exact sound.versions entry.1 data (List.mem_of_getElem? hdata)

/-- Every step of a device in place keeps its state sound. -/
theorem Sound.step (sound : Sound collection s) (inPlace : InPlace s) {action : Action}
    (hstep : s.step? action = some t) : Sound collection t := by
  cases stepped_of_step hstep with
  | receiveNothing | chooseNothing => exact sound
  | receiveList =>
      refine { sound with competitions := ?_ }
      intro competition membership
      rw [App.sortedByDate, List.mem_insertionSort, Database.getAllCompetitions,
        Database.appendDecoded_eq] at membership
      obtain ⟨document, hdocument, hdecode⟩ := List.mem_filterMap.mp membership
      obtain ⟨decoded, hdecoded, _, ofCollection⟩ :=
        (sound.of_mem_documents hdocument).decode
      rw [hdecode] at hdecoded
      cases hdecoded
      exact ofCollection
  | @pressCompetition index chosen table closed hchosen htable =>
      have ofCollection := sound.competitions chosen (List.mem_of_getElem? hchosen)
      refine { sound with shown := ?_, screen := ?_ }
      · rintro _ ⟨⟩
        exact ofCollection
      · rintro _ ⟨⟩
        obtain ⟨documentID, created, hid, hcreated, hwellFormed⟩ := ofCollection
        obtain ⟨found, hfound, wellFormed⟩ := hwellFormed.table
        rw [htable] at hfound
        cases hfound
        exact ⟨documentID, created, hid, hcreated, wellFormed.qtyPlayers,
          fun _ hopened => by cases hopened⟩
  | back => exact { sound with screen := fun _ hnone => by cases hnone }
  | @choose i j screen opened hscreen hne hi hj hopened =>
      refine { sound with screen := ?_ }
      rintro _ ⟨⟩
      obtain ⟨documentID, created, shown, table, onScreen⟩ :=
        sound.onScreen hscreen (inPlace.shown screen hscreen)
      refine ⟨documentID, created, onScreen.pressed, onScreen.created_eq, onScreen.qty, ?_⟩
      rintro _ ⟨⟩
      obtain ⟨played, hrow, hcolumn, found, hchoose⟩ := onScreen.exists_chooseMatch hi hj
      rw [hchoose] at hopened
      cases hopened
      exact ⟨i, j, hne, hrow, hcolumn, onScreen.wellFormed.ofCell i j played found⟩
  | @finish a b screen opened competition document hscreen hopened hwinning =>
      obtain ⟨documentID, created, shown, table, onScreen⟩ :=
        sound.onScreen hscreen (inPlace.shown screen hscreen)
      obtain ⟨next, data, hstored, hid, hwellFormed, hversion, hcell⟩ :=
        onScreen.winning hopened a b
      rw [hwinning] at hstored
      cases hstored
      refine ⟨sound.versions, sound.competitions, ?_, ?_, ?_⟩
      · rintro _ ⟨⟩
        exact ⟨documentID, created, hid, onScreen.created_eq, hwellFormed⟩
      · rintro _ ⟨⟩
        refine ⟨documentID, created, onScreen.pressed, onScreen.created_eq, onScreen.qty, ?_⟩
        rintro _ ⟨⟩
        exact hcell
      · intro other membership
        rcases List.mem_append.mp membership with older | newest
        · exact sound.inFlight other older
        · rw [List.mem_singleton.mp newest]
          exact ⟨created, onScreen.created_eq, hversion⟩
  | @dismiss screen hscreen =>
      refine { sound with screen := ?_ }
      rintro _ ⟨⟩
      obtain ⟨documentID, created, hpressed, hcreated, hqty, _⟩ := sound.screen screen hscreen
      exact ⟨documentID, created, hpressed, hcreated, hqty, fun _ hopened => by cases hopened⟩
  | @deliver documentID version data hdata =>
      have hversion := sound.versions documentID data (List.mem_of_getElem? hdata)
      obtain ⟨competition, hdecode, _, ofCollection⟩ := hversion.decode
      refine { sound with shown := ?_ }
      intro shown hshown
      simp only [receiveSnapshot, hdecode, Option.some.injEq] at hshown
      rw [← hshown]
      exact ofCollection
  | @commit index document hdocument =>
      have hversion := sound.inFlight document (List.mem_of_getElem? hdocument)
      refine { sound with versions := ?_, inFlight := ?_ }
      · apply (Function.forall_update_iff s.versions fun documentID versions =>
          ∀ data ∈ versions, StoredVersion collection documentID data).mpr
        refine ⟨?_, fun documentID _ => sound.versions documentID⟩
        intro data membership
        rcases List.mem_append.mp membership with older | newest
        · exact sound.versions _ data older
        · rw [List.mem_singleton.mp newest]
          exact hversion
      · intro other membership
        exact sound.inFlight other (List.mem_of_mem_eraseIdx membership)
  | fail =>
      refine { sound with inFlight := ?_ }
      intro other membership
      exact sound.inFlight other (List.mem_of_mem_eraseIdx membership)

/-- A step keeps a device in place when it meets the guard, and only then. -/
theorem InPlace.step_iff (inPlace : InPlace s) (sound : Sound collection s) {action : Action}
    (hstep : s.step? action = some t) : InPlace t ↔ SnapshotOfTop s action := by
  have next := sound.step inPlace hstep
  cases stepped_of_step hstep with
  | receiveNothing | chooseNothing => exact ⟨fun _ => trivial, fun _ => inPlace⟩
  | receiveList | commit | fail =>
      exact ⟨fun _ => trivial, fun _ => next.inPlace inPlace.shown inPlace.finished⟩
  | @pressCompetition index chosen table closed hchosen htable =>
      refine ⟨fun _ => trivial, fun _ => next.inPlace ?_ inPlace.finished⟩
      rintro _ ⟨⟩
      exact ⟨chosen, rfl, rfl⟩
  | back =>
      refine ⟨fun _ => trivial, fun _ => next.inPlace ?_ inPlace.finished⟩
      intro _ hnone
      cases hnone
  | @choose i j screen opened hscreen =>
      refine ⟨fun _ => trivial, fun _ => next.inPlace ?_ inPlace.finished⟩
      rintro _ ⟨⟩
      exact inPlace.shown screen hscreen
  | @finish a b screen opened competition document hscreen hopened hwinning =>
      obtain ⟨documentID, created, shown, table, onScreen⟩ :=
        sound.onScreen hscreen (inPlace.shown screen hscreen)
      obtain ⟨stored, data, hstored, hid, _⟩ := onScreen.winning hopened a b
      rw [hwinning] at hstored
      cases hstored
      refine ⟨fun _ => trivial, fun _ => next.inPlace ?_ ?_⟩
      · rintro _ ⟨⟩
        exact ⟨competition, rfl, hid.trans onScreen.pressed.symm⟩
      · intro entry membership
        rcases List.mem_append.mp membership with older | newest
        · exact inPlace.finished entry older
        · rw [List.mem_singleton.mp newest]
          exact ⟨hid.trans onScreen.pressed.symm, onScreen.pressed.symm⟩
  | @dismiss screen hscreen =>
      refine ⟨fun _ => trivial, fun _ => next.inPlace ?_ inPlace.finished⟩
      rintro _ ⟨⟩
      exact inPlace.shown screen hscreen
  | @deliver documentID version data hdata =>
      have hversion := sound.versions documentID data (List.mem_of_getElem? hdata)
      obtain ⟨competition, hdecode, hid, _⟩ := hversion.decode
      have hreceived : receiveSnapshot s.competition ⟨documentID, data⟩ = some competition := by
        simp [receiveSnapshot, hdecode]
      constructor
      · intro after screen hscreen
        obtain ⟨shown, hshown, hsame⟩ := after.shown screen hscreen
        rw [hreceived] at hshown
        cases hshown
        rw [← hsame, hid]
      · intro guard
        refine next.inPlace ?_ inPlace.finished
        intro screen hscreen
        exact ⟨competition, hreceived, hid.trans (guard screen hscreen).symm⟩

theorem Launched.sound (launched : Launched collection s) : Sound collection s := by
  obtain ⟨fresh, versions⟩ := launched
  rw [fresh]
  refine ⟨versions, ?_, ?_, ?_, ?_⟩
  · intro _ membership
    cases membership
  · intro _ hnone
    cases hnone
  · intro _ hnone
    cases hnone
  · intro _ membership
    cases membership

theorem Launched.inPlace (launched : Launched collection s) : InPlace s := by
  have sound := launched.sound
  obtain ⟨fresh, _⟩ := launched
  rw [fresh] at sound ⊢
  refine sound.inPlace ?_ ?_
  · intro _ hnone
    cases hnone
  · intro _ membership
    cases membership

/-! ## Two competitions of different sizes -/

/-- The app started over a collection whose documents have just been created. -/
def launch (collection : Collection) : App where
  versions documentID :=
    match collection documentID with
    | none => []
    | some created => (Database.sendCompetitionToDatabase created).toOption.toList

theorem launched_launch
    (created : ∀ documentID competition, collection documentID = some competition →
      ∃ title qtyPlayers date players accessUserIdArray,
        Competition.init title qtyPlayers date players accessUserIdArray =
          .ok competition) : Launched collection (launch collection) := by
  refine ⟨rfl, ?_⟩
  intro documentID data membership
  cases hcreated : collection documentID with
  | none =>
      simp only [launch, hcreated] at membership
      cases membership
  | some competition =>
      obtain ⟨title, qtyPlayers, date, players, ids, hinit⟩ := created _ _ hcreated
      obtain ⟨hwellFormed, table, _, htable⟩ := Competition.wellFormed_init hinit
      obtain ⟨fields, written⟩ := Database.exists_dictionary _ htable
      simp only [launch, hcreated, Database.sendCompetitionToDatabase_eq, written,
        Except.toOption, Option.toList_some, List.mem_singleton] at membership
      subst membership
      exact ⟨competition, hcreated, _, Database.decodeCompetition_dictionary written documentID,
        rfl, hwellFormed.readBack documentID⟩

/-- A competition of two players and one of three. -/
def cups : Collection := fun documentID =>
  if documentID = "a" then some (Shared.cup [.anna, .boris])
  else if documentID = "b" then
    some (Shared.cup [.anna, .boris, .vera])
  else none

theorem launched_cups : Launched cups (launch cups) := by
  apply launched_launch
  intro documentID competition hcreated
  unfold cups at hcreated
  split at hcreated
  · cases hcreated
    exact (Shared.startsWith_two Unit).created_eq
  · split at hcreated
    · cases hcreated
      exact (Shared.startsWith_three Unit).created_eq
    · cases hcreated

/--
Throughout a run the static competition is that of the screen on top, finished
matches are stored in and written to the competition whose cell was tapped, and
nothing on the screen traps, if and only if every snapshot of the run delivered
while the screen of a competition is on top is of that competition.
-/
theorem inPlace_throughout_iff {initial : App} {actions : List Action}
    (launched : Launched collection initial) :
    Throughout App.step? InPlace initial actions ↔
      Along App.step? SnapshotOfTop initial actions :=
  throughout_iff_along (Sound collection)
    (fun sound inPlace _ hstep => sound.step inPlace hstep)
    (fun sound inPlace hstep => inPlace.step_iff sound hstep)
    launched.sound launched.inPlace

/-- Two competitions are opened one after the other, and matches of both finished. -/
theorem inPlace_throughout_iff_two_competitions :
    (run? App.step? (launch cups)
      [.receiveList [("a", 0), ("b", 0)], .pressCompetition 0, .choose 0 1, .finish 1 0,
       .dismiss, .back, .pressCompetition 1, .choose 2 0, .finish 3 4]).isSome ∧
    Throughout App.step? InPlace (launch cups)
      [.receiveList [("a", 0), ("b", 0)], .pressCompetition 0, .choose 0 1, .finish 1 0,
       .dismiss, .back, .pressCompetition 1, .choose 2 0, .finish 3 4] := by
  refine ⟨by decide +kernel, (inPlace_throughout_iff launched_cups).mpr ?_⟩
  simp [Along, SnapshotOfTop]

/-- The snapshot of the competition opened before arrives on the screen of the
next one: its match is stored in the table and written to the document of the
former, and a tap in its last row traps. -/
theorem snapshot_of_other_competition :
    Launched cups (launch cups) ∧
    ∃ final screen shown entry,
      run? App.step? (launch cups)
        [.receiveList [("a", 0), ("b", 0)], .pressCompetition 0, .back, .pressCompetition 1,
         .deliver "a" 0, .choose 0 1, .finish 1 0] = some final ∧
      final.screen = some screen ∧ screen.competitionId = some "b" ∧ screen.qty = 3 ∧
      final.competition = some shown ∧ shown.id = some "a" ∧
      entry ∈ final.finished ∧ entry.tapped = some "b" ∧ entry.storedIn = some "a" ∧
      entry.document.documentID = "a" ∧
      chooseMatch final.competition 2 0 = .error .indexOutOfRange ∧ ¬ InPlace final := by
  have hcheck : ((run? App.step? (launch cups)
      [.receiveList [("a", 0), ("b", 0)], .pressCompetition 0, .back, .pressCompetition 1,
       .deliver "a" 0, .choose 0 1, .finish 1 0]).bind fun final =>
        final.screen.bind fun screen => final.competition.bind fun shown =>
          final.finished.head?.map fun entry => (final, screen, shown, entry)).any
      (fun found =>
        found.2.1.competitionId = some "b" ∧ found.2.1.qty = 3 ∧
        found.2.2.1.id = some "a" ∧ found.2.2.2.tapped = some "b" ∧
        found.2.2.2.storedIn = some "a" ∧ found.2.2.2.document.documentID = "a" ∧
        (match chooseMatch found.1.competition 2 0 with
          | .error trap => some trap
          | .ok _ => none) = some .indexOutOfRange) = true := by
    decide +kernel
  obtain ⟨⟨final, screen, shown, entry⟩, hfound, hfacts⟩ :=
    (Option.any_eq_true _ _).mp hcheck
  obtain ⟨_, hfinal, hrest⟩ := Option.bind_eq_some_iff.mp hfound
  obtain ⟨_, hscreen, hrest⟩ := Option.bind_eq_some_iff.mp hrest
  obtain ⟨_, hshown, hrest⟩ := Option.bind_eq_some_iff.mp hrest
  obtain ⟨_, hentry, htuple⟩ := Option.map_eq_some_iff.mp hrest
  cases htuple
  obtain ⟨hpressed, hqty, hid, htapped, hstored, hwritten, htrap⟩ := of_decide_eq_true hfacts
  have hmember := List.mem_of_mem_head? hentry
  refine ⟨launched_cups, final, screen, shown, entry, hfinal, hscreen, hpressed, hqty, hshown,
    hid, hmember, htapped, hstored, hwritten, ?_, ?_⟩
  · cases hchoose : chooseMatch final.competition 2 0 with
    | error trap => simpa [hchoose] using htrap
    | ok opened => simp [hchoose] at htrap
  · intro inPlace
    have hsame := (inPlace.finished entry hmember).1
    rw [htapped, hstored] at hsame
    exact absurd hsame (by decide)

end AnyCompetition.Navigation
