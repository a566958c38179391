import AnyCompetition.Navigation.ClubAccess

/-!
# Competitions with tables of their own

What keeps the table of one competition apart from the matches of another, for all
devices and all competitions together: while the screen of a competition is open, the
snapshots delivered to that device are of that competition.
-/

namespace AnyCompetition.Navigation

open Json Trap GuardedRun CompetitionViewController

variable {created later : Collection}

/-! ## More competitions -/

theorem OfCollection.mono (known : ∀ documentID origin, created documentID = some origin →
    later documentID = some origin) {competition : Competition}
    (ofCollection : OfCollection created competition) : OfCollection later competition := by
  obtain ⟨documentID, origin, hid, horigin, hwellFormed⟩ := ofCollection
  exact ⟨documentID, origin, hid, known documentID origin horigin, hwellFormed⟩

theorem StoredVersion.mono (known : ∀ documentID origin, created documentID = some origin →
    later documentID = some origin) {documentID : String} {data : Fields}
    (stored : StoredVersion created documentID data) : StoredVersion later documentID data := by
  obtain ⟨origin, horigin, version⟩ := stored
  exact ⟨origin, known documentID origin horigin, version⟩

/-- A device does not lose its place by what other devices create or store. -/
theorem Sound.mono (known : ∀ documentID origin, created documentID = some origin →
    later documentID = some origin) {app next : App} (sound : Sound created app)
    (competitions : next.competitions = app.competitions)
    (competition : next.competition = app.competition) (screen : next.screen = app.screen)
    (versions : ∀ documentID data, data ∈ next.versions documentID →
      StoredVersion later documentID data)
    (inFlight : ∀ document ∈ next.inFlight,
      StoredVersion later document.documentID document.data) : Sound later next where
  versions := versions
  competitions listed membership :=
    (sound.competitions listed (competitions ▸ membership)).mono known
  shown shown hshown := (sound.shown shown (competition ▸ hshown)).mono known
  screen opened hopened := by
    obtain ⟨documentID, origin, hpressed, horigin, hrest⟩ :=
      sound.screen opened (screen ▸ hopened)
    exact ⟨documentID, origin, hpressed, known documentID origin horigin, hrest⟩
  inFlight := inFlight

/-- The store does not matter to what is shown. -/
theorem InPlace.withStore {app next : App} (inPlace : InPlace app)
    (competition : next.competition = app.competition) (screen : next.screen = app.screen)
    (finished : next.finished = app.finished) : InPlace next where
  shown := by
    rw [competition, screen]
    exact inPlace.shown
  finished := by
    rw [finished]
    exact inPlace.finished
  cells := by
    rw [competition, screen]
    exact inPlace.cells
  finishes := by
    rw [competition, screen]
    exact inPlace.finishes

namespace Club

/-- All that is stored, pending, listed or shown is a well-formed version of the
competition created under its id. -/
structure OwnVersions {ι : Type} (s : Club ι) : Prop where
  versions : ∀ documentID data, data ∈ s.versions documentID →
    StoredVersion s.created documentID data
  inFlight : ∀ document ∈ s.inFlight,
    StoredVersion s.created document.documentID document.data
  devices : ∀ device, Navigation.Sound s.created (s.app device)

/-- All competitions have tables of their own, and every device is in place. -/
structure Apart {ι : Type} (s : Club ι) : Prop where
  own : s.OwnVersions
  inPlace : ∀ device, InPlace (s.app device)

/-- A snapshot delivered to a device while the screen of a competition is on top there is of
that competition. -/
def SnapshotOfTop {ι : Type} (s : Club ι) : Club.Action ι → Prop
  | .onDevice device action => Navigation.SnapshotOfTop (s.app device) action
  | _ => True

variable {ι : Type} [DecidableEq ι] {s t : Club ι}

omit [DecidableEq ι] in
theorem launched_app (device : ι) : Launched s.created (({} : Club ι).app device) := by
  refine ⟨rfl, ?_⟩
  intro documentID data membership
  cases membership

omit [DecidableEq ι] in
theorem apart_start : Apart ({} : Club ι) where
  own := {
    versions := fun _ _ membership => by cases membership
    inFlight := fun _ membership => by cases membership
    devices := fun device => (launched_app device).sound }
  inPlace device := (launched_app (s := {}) device).inPlace

/-- The app of a device after a step of one of them. -/
theorem app_setApp (s : Club ι) (device other : ι) (next : App) :
    (s.setApp device next).app other =
      if other = device then next
      else { s.app other with versions := next.versions, inFlight := next.inFlight } := by
  by_cases hsame : other = device
  · subst hsame
    rw [if_pos rfl, app, setApp]
    simp only [Function.update_self]
  · rw [if_neg hsame, app, setApp]
    simp only [Function.update_of_ne hsame]
    rfl

theorem Apart.onDevice (apart : s.Apart) {device : ι} {action : Navigation.Action} {next : App}
    (hstep : (s.app device).step? action = some next) :
    (s.setApp device next).Apart ↔ Navigation.SnapshotOfTop (s.app device) action := by
  have sound := apart.own.devices device
  have inPlace := apart.inPlace device
  constructor
  · intro after
    have hnext := after.inPlace device
    rw [app_setApp, if_pos rfl] at hnext
    exact (inPlace.step_iff sound hstep).mp hnext
  · intro guard
    have hnext := sound.step inPlace hstep
    refine ⟨⟨hnext.versions, hnext.inFlight, ?_⟩, ?_⟩
    · intro other
      rw [app_setApp]
      split
      · exact hnext
      · exact (apart.own.devices other).mono (fun _ _ => id) rfl rfl rfl hnext.versions
          hnext.inFlight
    · intro other
      rw [app_setApp]
      split
      · exact (inPlace.step_iff sound hstep).mpr guard
      · exact (apart.inPlace other).withStore rfl rfl rfl

/-- The list and the screens of a device are opened anew for another user. -/
theorem app_signIn {device : ι} {uid : String} (hstep : s.step? (.signIn device uid) = some t)
    (other : ι) : t.app other =
      if other = device then { s.app device with competitions := [], screen := none }
      else s.app other := by
  cases hstep
  by_cases hsame : other = device
  · subst hsame
    rw [if_pos rfl, app]
    simp only [Function.update_self]
    rfl
  · rw [if_neg hsame, app]
    simp only [Function.update_of_ne hsame]
    rfl

theorem Apart.signIn (apart : s.Apart) {device : ι} {uid : String}
    (hstep : s.step? (.signIn device uid) = some t) : t.Apart := by
  have sound := apart.own.devices device
  have closed : Navigation.Sound s.created
      { s.app device with competitions := [], screen := none } := by
    refine { sound with competitions := ?_, screen := ?_ }
    · intro competition membership
      cases membership
    · intro screen hnone
      cases hnone
  have created : t.created = s.created := by
    cases hstep
    rfl
  refine ⟨⟨?_, ?_, ?_⟩, ?_⟩
  · cases hstep
    exact apart.own.versions
  · cases hstep
    exact apart.own.inFlight
  · intro other
    rw [created, app_signIn hstep]
    split
    · exact closed
    · exact apart.own.devices other
  · intro other
    rw [app_signIn hstep]
    split
    · refine closed.inPlace ?_ (apart.inPlace device).finished
      intro screen hnone
      cases hnone
    · exact apart.inPlace other

omit [DecidableEq ι] in
/-- A new competition is sent under an id of its own. -/
theorem Apart.create (apart : s.Apart) {documentID : String} {origin : Competition}
    {written : Fields} (hnew : s.created documentID = none) (sent : Sent origin)
    (hwritten : origin.dictionary = .ok written) :
    Apart { s with
      created := Function.update s.created documentID (some origin)
      inFlight := s.inFlight ++ [⟨documentID, written⟩] } := by
  have known : ∀ other found, s.created other = some found →
      Function.update s.created documentID (some origin) other = some found := by
    intro other found hfound
    rw [Function.update_of_ne _, hfound]
    rintro rfl
    rw [hnew] at hfound
    cases hfound
  have versions : ∀ other data, data ∈ s.versions other →
      StoredVersion (Function.update s.created documentID (some origin)) other data :=
    fun other data membership => (apart.own.versions other data membership).mono known
  have inFlight : ∀ document ∈ s.inFlight ++ [(⟨documentID, written⟩ : Document)],
      StoredVersion (Function.update s.created documentID (some origin))
        document.documentID document.data := by
    intro document membership
    rcases List.mem_append.mp membership with earlier | last
    · exact (apart.own.inFlight document earlier).mono known
    · rw [List.mem_singleton.mp last]
      exact ⟨origin, Function.update_self .., _,
        Database.decodeCompetition_dictionary hwritten documentID, rfl,
        sent.wellFormed.readBack documentID⟩
  refine ⟨⟨versions, inFlight, ?_⟩, ?_⟩
  · intro device
    exact (apart.own.devices device).mono known rfl rfl rfl versions inFlight
  · intro device
    exact (apart.inPlace device).withStore rfl rfl rfl

theorem Apart.step_iff (apart : s.Apart) {action : Club.Action ι}
    (hstep : s.step? action = some t) : t.Apart ↔ s.SnapshotOfTop action := by
  cases stepped_of_step hstep with
  | signIn => exact ⟨fun _ => trivial, fun _ => apart.signIn hstep⟩
  | notSent => exact ⟨fun _ => trivial, fun _ => apart⟩
  | sent tapped hnew =>
      obtain ⟨sent, hwritten, _⟩ := Sent.of_tap tapped
      exact ⟨fun _ => trivial, fun _ => apart.create hnew sent hwritten⟩
  | onDevice _ hnext => exact apart.onDevice hnext

/--
Any number of devices create, list, open, play and write any number of competitions.
Throughout a run everything stored, pending, listed and shown is a well-formed version of
the competition created under its id, every screen of a competition shows the one that it
was opened for, every finished match is stored in and written to the competition whose
cell was tapped, and nothing on a screen traps, if and only if every snapshot delivered to
a device while the screen of a competition is on top there is of that competition.
-/
theorem apart_throughout_iff (actions : List (Club.Action ι)) :
    Throughout step? Apart {} actions ↔ Along step? SnapshotOfTop {} actions :=
  throughout_iff_along_of_step_iff (fun apart hstep => apart.step_iff hstep) apart_start actions

end Club

end AnyCompetition.Navigation
