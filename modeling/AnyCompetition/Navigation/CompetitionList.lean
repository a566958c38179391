import AnyCompetition.Library.GuardedRun
import AnyCompetition.Navigation.App

/-!
# The list of competitions

The listener of the collection publishes a snapshot only when it has documents,
and the controller sorts what is published.  The list follows the snapshots as
long as an empty one comes only while nothing is shown.
-/

namespace AnyCompetition

open Json GuardedRun

/-- The document id is set in the map before the map is decoded. -/
theorem Database.id_of_decodeCompetition {document : Document} {competition : Competition}
    (decoded : decodeCompetition document = some competition) :
    competition.id = some document.documentID := by
  rw [decodeCompetition, Competition.decode] at decoded
  simp only [bind_eq_some_iff] at decoded
  obtain ⟨_, ⟨⟩, id, hid, _, _, _, _, _, _, _, _, _, _, _, _, ⟨⟩⟩ := decoded
  rw [ifPresent, lookup_setKey_same] at hid
  exact (Option.some.inj hid).symm

namespace Navigation

/-! ## Sorting -/

/-- The order of the list: the later date first. -/
abbrev NotBefore (first second : Competition) : Prop :=
  second.date ≤ first.date

theorem App.perm_sortedByDate (competitions : List Competition) :
    (sortedByDate competitions).Perm competitions :=
  List.perm_insertionSort _ competitions

theorem App.pairwise_sortedByDate (competitions : List Competition) :
    (sortedByDate competitions).Pairwise NotBefore := by
  have total : Std.Total NotBefore := ⟨fun first second =>
    String.le_total second.date first.date⟩
  have trans : IsTrans Competition NotBefore :=
    ⟨fun _ _ _ later earlier => String.le_trans earlier later⟩
  exact List.pairwise_insertionSort NotBefore competitions

/-! ## Snapshots -/

structure CompetitionList where
  /-- The variable captured by the listener. -/
  captured : List Competition := []
  /-- `CompetitionsViewController.competitions`. -/
  competitions : List Competition := []
  /-- The documents of the latest snapshot. -/
  snapshot : Option (List Document) := none

namespace CompetitionList

/-- The captured variable after a snapshot, and what is published. -/
def addListenerToCompetitionCollection (competitions : List Competition)
    (documents : List Document) : List Competition × Option (List Competition) :=
  if documents.length ≠ 0 then
    -- the variable is emptied before the loop appends to it
    let competitions := Database.getAllCompetitions documents
    (competitions, some competitions)
  else (competitions, none)

def addObserverToCompetitionsDatabase (shown : List Competition) :
    Option (List Competition) → List Competition
  | some competitions => App.sortedByDate competitions
  | none => shown

/-- A delivery of a snapshot to the listener. -/
def step? (s : CompetitionList) (documents : List Document) : Option CompetitionList :=
  let (captured, published) := addListenerToCompetitionCollection s.captured documents
  some {
    captured
    competitions := addObserverToCompetitionsDatabase s.competitions published
    snapshot := some documents }

/-- The shown list has the documents that decode, the latest date first. -/
structure Reflects (documents : List Document) (shown : List Competition) : Prop where
  perm : shown.Perm (documents.filterMap Database.decodeCompetition)
  ids : ∀ competition ∈ shown, ∃ document ∈ documents,
    Database.decodeCompetition document = some competition ∧
      competition.id = some document.documentID
  sorted : shown.Pairwise NotBefore

/-- The list shows the latest snapshot, if there has been one. -/
def ShowsLatest (s : CompetitionList) : Prop :=
  ∀ documents, s.snapshot = some documents → Reflects documents s.competitions

/-- A snapshot without documents comes only while nothing is shown. -/
def EmptyOnlyOverEmpty (s : CompetitionList) (documents : List Document) : Prop :=
  documents = [] → s.competitions = []

variable {s t : CompetitionList} {documents : List Document}

theorem reflects_sortedByDate (documents : List Document) :
    Reflects documents (App.sortedByDate (Database.getAllCompetitions documents)) := by
  have perm : (App.sortedByDate (Database.getAllCompetitions documents)).Perm
      (documents.filterMap Database.decodeCompetition) := by
    rw [← Database.appendDecoded_eq]
    exact App.perm_sortedByDate _
  refine ⟨perm, ?_, App.pairwise_sortedByDate _⟩
  intro competition membership
  obtain ⟨document, hdocument, hdecode⟩ :=
    List.mem_filterMap.mp (perm.mem_iff.mp membership)
  exact ⟨document, hdocument, hdecode, Database.id_of_decodeCompetition hdecode⟩

theorem reflects_nil_iff {shown : List Competition} : Reflects [] shown ↔ shown = [] := by
  constructor
  · intro reflects
    exact List.perm_nil.mp reflects.perm
  · rintro rfl
    exact ⟨List.Perm.refl [], nofun, List.Pairwise.nil⟩

/-- At the start nothing has been delivered. -/
theorem showsLatest_initial : ShowsLatest {} := by
  intro documents hdelivered
  cases hdelivered

/-- What a delivery leaves shown. -/
theorem step_cases (hstep : s.step? documents = some t) :
    t.snapshot = some documents ∧
      ((documents = [] ∧ t.competitions = s.competitions) ∨
        (documents ≠ [] ∧
          t.competitions = App.sortedByDate (Database.getAllCompetitions documents))) := by
  cases hstep
  refine ⟨rfl, ?_⟩
  cases documents with
  | nil => exact .inl ⟨rfl, rfl⟩
  | cons document rest => exact .inr ⟨List.cons_ne_nil _ _, rfl⟩

theorem showsLatest_step_iff (hstep : s.step? documents = some t) :
    ShowsLatest t ↔ EmptyOnlyOverEmpty s documents := by
  obtain ⟨hsnapshot, ⟨rfl, hshown⟩ | ⟨nonempty, hshown⟩⟩ := step_cases hstep
  · rw [ShowsLatest, hsnapshot, hshown]
    constructor
    · intro shows _
      exact reflects_nil_iff.mp (shows [] rfl)
    · rintro guard _ ⟨⟩
      exact reflects_nil_iff.mpr (guard rfl)
  · rw [ShowsLatest, hsnapshot, hshown]
    constructor
    · intro _ hempty
      exact absurd hempty nonempty
    · rintro _ _ ⟨⟩
      exact reflects_sortedByDate documents

/--
For every sequence of snapshots, the list shows after each of them exactly the
documents of that snapshot that decode, under their document ids and the latest date
first, if and only if every snapshot without documents comes while nothing is shown.
-/
theorem showsLatest_throughout_iff (snapshots : List (List Document)) :
    Throughout step? ShowsLatest {} snapshots ↔ Along step? EmptyOnlyOverEmpty {} snapshots :=
  throughout_iff_along_of_step_iff (fun _ hstep => showsLatest_step_iff hstep)
    showsLatest_initial snapshots

/-- The last competition leaves the collection and stays in the list. -/
theorem removed_competition_stays :
    let document : Document := ⟨"c1",
      [("title", .string "Cup"), ("qtyPlayers", .number 0),
       ("date", .string "2022-12-20 10:00:00 +0000"), ("accessUsersIdArray", .array []),
       ("players", .array [])]⟩
    ∃ final, run? step? {} [[document], []] = some final ∧
      final.snapshot = some [] ∧ final.competitions.map Competition.id = [some "c1"] ∧
      ¬ ShowsLatest final := by
  intro document
  refine ⟨_, rfl, rfl, rfl, ?_⟩
  intro shows
  have hnone := reflects_nil_iff.mp (shows [] rfl)
  cases hnone

end CompetitionList

end Navigation

end AnyCompetition
