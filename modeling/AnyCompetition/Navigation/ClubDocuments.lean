import AnyCompetition.Database.NormalForm
import AnyCompetition.Navigation.ClubAccess

/-!
# The documents of the collection are normal

Every document of the collection was written by the app, when a competition was sent or
when a match was finished.  So no run brings a document into the collection from which a
device would read less than it has.
-/

namespace AnyCompetition

open Json Trap GuardedRun CompetitionViewController

theorem Competition.withoutDocId_withoutDocId (competition : Competition) :
    competition.withoutDocId.withoutDocId = competition.withoutDocId := by
  have hplayers := List.map_congr_left (l := competition.players)
    fun player _ => player.withoutDocId_withoutDocId
  have hmatch : ∀ played : Match, played.withoutDocId.withoutDocId = played.withoutDocId := by
    intro played
    simp only [Match.withoutDocId, User.withoutDocId_withoutDocId]
  cases htable : competition.competitionTable with
  | none =>
      simp only [withoutDocId, htable, List.map_map, Function.comp_def, hplayers,
        Option.map_none]
  | some table =>
      simp only [withoutDocId, htable, List.map_map, Function.comp_def, hplayers,
        Option.map_some, CompetitionTable.withoutDocId, hmatch]

namespace Navigation

/-- The map is one that the app writes. -/
def Written (data : Fields) : Prop :=
  ∃ competition : Competition, competition.dictionary = .ok data

/-- All maps of the collection and all pending ones were written by the app. -/
def AllWritten (versions : String → List Fields) (inFlight : List Document) : Prop :=
  (∀ documentID data, data ∈ versions documentID → Written data) ∧
    ∀ document ∈ inFlight, Written document.data

/-- A finish writes the competition that is shown afterwards. -/
theorem written_of_winning {competition : Option Competition} {played : Match}
    {shown : Competition} {document : Document}
    (stored : winning competition played = .ok (shown, document)) : Written document.data := by
  obtain ⟨current, _, hrest⟩ := bind_eq_ok_iff.mp stored
  obtain ⟨found, _, hrest⟩ := bind_eq_ok_iff.mp hrest
  obtain ⟨documentID, _, hrest⟩ := bind_eq_ok_iff.mp hrest
  obtain ⟨written, hwritten, hsame⟩ := bind_eq_ok_iff.mp hrest
  cases hsame
  exact ⟨shown, Database.dictionary_of_update hwritten⟩

/-- A device only adds a pending map that it wrote, or stores a pending one. -/
theorem AllWritten.step {s t : App} (written : AllWritten s.versions s.inFlight)
    {action : Action} (hstep : s.step? action = some t) :
    AllWritten t.versions t.inFlight := by
  cases stepped_of_step hstep with
  | receiveNothing | receiveList | pressCompetition | back | chooseNothing | choose | dismiss
    | deliver => exact written
  | @finish a b screen opened competition document hscreen hopened hwinning =>
      refine ⟨written.1, ?_⟩
      intro other membership
      rcases List.mem_append.mp membership with earlier | last
      · exact written.2 other earlier
      · rw [List.mem_singleton.mp last]
        exact written_of_winning hwinning
  | @commit index document hdocument =>
      have hpending := written.2 document (List.mem_of_getElem? hdocument)
      refine ⟨?_, fun other membership => written.2 other (List.mem_of_mem_eraseIdx membership)⟩
      apply (Function.forall_update_iff s.versions fun _ held =>
        ∀ data ∈ held, Written data).mpr
      refine ⟨?_, fun documentID _ => written.1 documentID⟩
      intro data membership
      rcases List.mem_append.mp membership with earlier | last
      · exact written.1 document.documentID data earlier
      · rw [List.mem_singleton.mp last]
        exact hpending
  | fail =>
      exact ⟨written.1, fun other membership =>
        written.2 other (List.mem_of_mem_eraseIdx membership)⟩

namespace Club

variable {ι : Type} [DecidableEq ι] {s t : Club ι}

theorem allWritten_step (written : AllWritten s.versions s.inFlight)
    {action : Club.Action ι} (hstep : s.step? action = some t) :
    AllWritten t.versions t.inFlight := by
  cases stepped_of_step hstep with
  | signIn | notSent => exact written
  | @sent screen title now documentID origin fields tapped =>
      refine ⟨written.1, ?_⟩
      intro document membership
      rcases List.mem_append.mp membership with earlier | last
      · exact written.2 document earlier
      · rw [List.mem_singleton.mp last]
        exact ⟨origin, (Sent.of_tap tapped).2.1⟩
  | @onDevice device action app _ happ =>
      exact AllWritten.step (s := s.app device) written happ

theorem allWritten_of_run {actions : List (Club.Action ι)}
    (hrun : run? step? {} actions = some s) : AllWritten s.versions s.inFlight := by
  refine run?_invariant (P := fun s : Club ι => AllWritten s.versions s.inFlight)
    (fun written hstep => allWritten_step written hstep) ⟨?_, ?_⟩ hrun
  · intro documentID data membership
    cases membership
  · intro document membership
    cases membership

/-- A stored or a pending version of a document. -/
def HasVersion (s : Club ι) (documentID : String) (data : Fields) : Prop :=
  data ∈ s.versions documentID ∨ ⟨documentID, data⟩ ∈ s.inFlight

/--
In every run each stored and each pending version of a document reads as a competition
without document ids in its users, is written back as it is, and is the only version of
its document that reads as this competition.
-/
theorem stored_documents_are_normal {actions : List (Club.Action ι)}
    (hrun : run? step? {} actions = some s) {documentID : String} {data : Fields}
    (version : s.HasVersion documentID data) :
    Database.rewrite ⟨documentID, data⟩ = some ⟨documentID, data⟩ ∧
      ∃ competition, Database.decodeCompetition ⟨documentID, data⟩ = some competition ∧
        competition.withoutDocId = competition ∧
        ∀ other, s.HasVersion documentID other →
          Database.decodeCompetition ⟨documentID, other⟩ = some competition → other = data := by
  obtain ⟨stored, pending⟩ := allWritten_of_run hrun
  have written : ∀ other, s.HasVersion documentID other → Written other := by
    intro other hother
    rcases hother with hversion | hpending
    · exact stored documentID other hversion
    · exact pending _ hpending
  obtain ⟨origin, horigin⟩ := written data version
  obtain ⟨readBack, hreadBack, again⟩ :=
    Database.dictionary_of_decodes_written horigin documentID
  refine ⟨Database.rewrite_eq hreadBack again, readBack, hreadBack, ?_, ?_⟩
  · rw [Database.decodeCompetition_dictionary horigin documentID] at hreadBack
    cases hreadBack
    exact congrArg (fun competition => { competition with id := some documentID })
      origin.withoutDocId_withoutDocId
  · intro other hother hsame
    obtain ⟨first, hfirst⟩ := written other hother
    obtain ⟨found, hfound, hdictionary⟩ :=
      Database.dictionary_of_decodes_written hfirst documentID
    rw [hsame] at hfound
    cases hfound
    rw [again] at hdictionary
    cases hdictionary
    rfl

theorem stored_documents_are_normal_two_devices :
    ∃ (final : Club Bool) (data : Fields), run? step? {} twoDevices = some final ∧
      (final.versions "c1").head? = some data ∧ (final.versions "c1").length = 2 ∧
      Database.rewrite ⟨"c1", data⟩ = some ⟨"c1", data⟩ ∧
      ∃ competition, Database.decodeCompetition ⟨"c1", data⟩ = some competition ∧
        competition.withoutDocId = competition ∧
        ∀ other, final.HasVersion "c1" other →
          Database.decodeCompetition ⟨"c1", other⟩ = some competition → other = data := by
  have hcheck : ((run? step? {} twoDevices).bind fun final =>
      (final.versions "c1").head?.map fun data => (final, data)).any
      (fun found => (found.1.versions "c1").length = 2) = true := by
    decide +kernel
  obtain ⟨⟨final, data⟩, hfound, hlength⟩ := (Option.any_eq_true _ _).mp hcheck
  obtain ⟨_, hrun, hrest⟩ := Option.bind_eq_some_iff.mp hfound
  obtain ⟨_, hfirst, htuple⟩ := Option.map_eq_some_iff.mp hrest
  cases htuple
  exact ⟨final, data, hrun, hfirst, of_decide_eq_true hlength,
    stored_documents_are_normal hrun (Or.inl (List.mem_of_mem_head? hfirst))⟩

end Club

end AnyCompetition.Navigation
