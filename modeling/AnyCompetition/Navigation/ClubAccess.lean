import AnyCompetition.Navigation.Club

/-!
# Who sees and writes a competition

Snapshots of one competition can replace another one on the screen, so that matches are
stored in a foreign table.  All the same a document stays the competition that it was
created as, and a device only has competitions whose players have used it.
-/

namespace AnyCompetition.Navigation

open Json Trap GuardedRun CompetitionViewController

/-! ## The invariant -/

/-- A stored map of the competition created under this id. -/
def Stored (created : Collection) (documentID : String) (data : Fields) : Prop :=
  ∃ origin version, created documentID = some origin ∧
    Database.decodeCompetition ⟨documentID, data⟩ = some version ∧ origin.Keeps version

/-- One of the users is a player of the competition created under this id. -/
def Plays (created : Collection) (users : List String) (documentID : String) : Prop :=
  ∃ origin, created documentID = some origin ∧ ∃ uid ∈ users, uid ∈ origin.accessUsersIdArray

/-- A version of a competition that one of the users plays. -/
def Shown (created : Collection) (users : List String) (competition : Competition) : Prop :=
  ∃ documentID origin, competition.id = some documentID ∧ created documentID = some origin ∧
    origin.Keeps competition ∧ Plays created users documentID

structure StoreSound (created : Collection) (app : App) : Prop where
  versions : ∀ documentID data, data ∈ app.versions documentID → Stored created documentID data
  inFlight : ∀ document ∈ app.inFlight, Stored created document.documentID document.data

structure DeviceSound (created : Collection) (users : List String) (app : App) : Prop where
  competitions : ∀ competition ∈ app.competitions, Shown created users competition
  shown : ∀ competition, app.competition = some competition → Shown created users competition
  opened : ∀ screen opened, app.screen = some screen →
    screen.matchViewController = some opened → ∃ i j : Nat, i ≠ j ∧ opened.played.At i j
  listeners : ∀ documentID ∈ app.listeners, Plays created users documentID
  finished : ∀ entry ∈ app.finished, Plays created users entry.document.documentID

variable {created later : Collection} {users more : List String} {app next : App}

/-! ## More competitions and more users -/

theorem Stored.mono (known : ∀ documentID origin, created documentID = some origin →
    later documentID = some origin) {documentID : String} {data : Fields}
    (stored : Stored created documentID data) : Stored later documentID data := by
  obtain ⟨origin, version, horigin, hdecode, keeps⟩ := stored
  exact ⟨origin, version, known documentID origin horigin, hdecode, keeps⟩

theorem Plays.mono (known : ∀ documentID origin, created documentID = some origin →
    later documentID = some origin) (among : users ⊆ more) {documentID : String}
    (plays : Plays created users documentID) : Plays later more documentID := by
  obtain ⟨origin, horigin, uid, huid, hplayer⟩ := plays
  exact ⟨origin, known documentID origin horigin, uid, among huid, hplayer⟩

theorem Shown.mono (known : ∀ documentID origin, created documentID = some origin →
    later documentID = some origin) (among : users ⊆ more) {competition : Competition}
    (shown : Shown created users competition) : Shown later more competition := by
  obtain ⟨documentID, origin, hid, horigin, keeps, plays⟩ := shown
  exact ⟨documentID, origin, hid, known documentID origin horigin, keeps, plays.mono known among⟩

theorem DeviceSound.mono (known : ∀ documentID origin, created documentID = some origin →
    later documentID = some origin) (among : users ⊆ more)
    (sound : DeviceSound created users app) : DeviceSound later more app where
  competitions competition membership :=
    (sound.competitions competition membership).mono known among
  shown competition hshown := (sound.shown competition hshown).mono known among
  opened := sound.opened
  listeners documentID membership := (sound.listeners documentID membership).mono known among
  finished entry membership := (sound.finished entry membership).mono known among

theorem deviceSound_fresh : DeviceSound created users { versions := fun _ => [] } := by
  refine ⟨?_, ?_, ?_, ?_, ?_⟩
  · intro competition membership
    cases membership
  · intro competition hnone
    cases hnone
  · intro screen opened hnone
    cases hnone
  · intro documentID membership
    cases membership
  · intro entry membership
    cases membership

/-! ## Steps of one device -/

/-- What is read back from a stored map, shown to one of its players. -/
theorem Stored.shown {documentID : String} {data : Fields}
    (stored : Stored created documentID data) {competition : Competition}
    (hdecode : Database.decodeCompetition ⟨documentID, data⟩ = some competition)
    (plays : Plays created users documentID) : Shown created users competition := by
  obtain ⟨origin, version, horigin, hversion, keeps⟩ := stored
  rw [hdecode] at hversion
  cases hversion
  exact ⟨documentID, origin, Database.id_of_decodeCompetition hdecode, horigin, keeps, plays⟩

/-- A document found by the query for a user is a competition that the user plays. -/
theorem Stored.plays {documentID : String} {data : Fields}
    (stored : Stored created documentID data) {uid : String} (huid : uid ∈ users)
    (found : Database.hasAccess uid data = true) : Plays created users documentID := by
  obtain ⟨origin, version, horigin, hversion, keeps⟩ := stored
  have hplayer := (hasAccess_iff_of_decodes hversion uid).mp found
  rw [keeps.accessUsersIdArray] at hplayer
  exact ⟨origin, horigin, uid, huid, hplayer⟩

/-- A finish that does not trap keeps the competition, which is written as it is shown. -/
theorem winning_cases {competition : Option Competition} {played : Match} {shown : Competition}
    {document : Document} (stored : winning competition played = .ok (shown, document)) :
    ∃ before table finished, competition = some before ∧
      before.competitionTable = some table ∧ table.finishMatch played = .ok finished ∧
      shown = { before with competitionTable := some finished } ∧
      before.id = some document.documentID ∧
      Database.decodeCompetition document =
        some { shown.withoutDocId with id := some document.documentID } := by
  obtain ⟨current, hcurrent, hrest⟩ := bind_eq_ok_iff.mp stored
  obtain ⟨found, hfound, hrest⟩ := bind_eq_ok_iff.mp hrest
  obtain ⟨documentID, hid, hrest⟩ := bind_eq_ok_iff.mp hrest
  obtain ⟨written, hwritten, hsame⟩ := bind_eq_ok_iff.mp hrest
  cases hsame
  cases current with
  | none => cases hfound
  | some current =>
      cases hfound
      cases competition with
      | none => cases hcurrent
      | some before =>
          cases htable : before.competitionTable with
          | none =>
              simp only [finishCurrent, htable, Except.ok.injEq, Option.some.injEq] at hcurrent
              rw [← hcurrent, Database.updateCompetitionDataToDataBase, htable] at hwritten
              cases hwritten
          | some table =>
              simp only [finishCurrent, htable] at hcurrent
              obtain ⟨finished, hfinished, ⟨⟩⟩ := bind_eq_ok_iff.mp hcurrent
              obtain ⟨fields, hfields⟩ := Database.exists_dictionary
                { before with competitionTable := some finished } rfl
              rw [Database.updateCompetitionDataToDataBase_eq hfields] at hwritten
              cases hwritten
              have hbefore : before.id = some documentID := by
                cases hbeforeId : before.id with
                | none =>
                    rw [hbeforeId] at hid
                    cases hid
                | some id =>
                    rw [hbeforeId] at hid
                    cases hid
                    rfl
              exact ⟨before, table, finished, rfl, htable, hfinished, rfl, hbefore,
                Database.decodeCompetition_dictionary hfields documentID⟩

/-- The match of the tapped cell is opened. -/
theorem chooseMatch_cases {competition : Option Competition} {i j : Nat}
    {opened : MatchViewController} (hopened : chooseMatch competition i j = .ok (some opened)) :
    ∃ shown table, competition = some shown ∧ shown.competitionTable = some table ∧
      table.match? i j = some opened.played := by
  cases competition with
  | none => cases hopened
  | some shown =>
      cases htable : shown.competitionTable with
      | none => simp [chooseMatch, htable] at hopened
      | some table =>
          cases found : table.match? i j with
          | none =>
              rw [chooseMatch_trap htable found] at hopened
              cases hopened
          | some played =>
              rw [chooseMatch_eq htable found] at hopened
              cases hopened
              exact ⟨shown, table, rfl, htable, found⟩

theorem StoreSound.step (store : StoreSound created app) (sound : DeviceSound created users app)
    {action : Action} (hstep : app.step? action = some next) : StoreSound created next := by
  cases stepped_of_step hstep with
  | receiveNothing | receiveList | pressCompetition | back | chooseNothing | choose | dismiss
    | deliver => exact ⟨store.versions, store.inFlight⟩
  | @finish a b screen opened competition document hscreen hopened hwinning =>
      obtain ⟨before, table, finished, hbefore, htable, hfinished, rfl, hid, hdecode⟩ :=
        winning_cases hwinning
      obtain ⟨i, j, hne, isAt⟩ := sound.opened screen opened hscreen hopened
      obtain ⟨documentID, origin, hsame, horigin, keeps, _⟩ := sound.shown before hbefore
      obtain ⟨found, hfound, mirrored⟩ := keeps.table
      rw [htable] at hfound
      cases hfound
      rw [hid] at hsame
      cases hsame
      have hkeeps : origin.Keeps { before with competitionTable := some finished } :=
        { keeps with
          table := ⟨finished, rfl, mirrored.finishMatch (isAt.makeMatch a b) hne hfinished⟩ }
      refine ⟨store.versions, ?_⟩
      intro other membership
      rcases List.mem_append.mp membership with earlier | last
      · exact store.inFlight other earlier
      · rw [List.mem_singleton.mp last]
        exact ⟨origin, _, horigin, hdecode, hkeeps.readBack document.documentID⟩
  | @commit index document hdocument =>
      have stored := store.inFlight document (List.mem_of_getElem? hdocument)
      refine ⟨?_, fun other membership =>
        store.inFlight other (List.mem_of_mem_eraseIdx membership)⟩
      apply (Function.forall_update_iff app.versions fun documentID versions =>
        ∀ data ∈ versions, Stored created documentID data).mpr
      refine ⟨?_, fun documentID _ => store.versions documentID⟩
      intro data membership
      rcases List.mem_append.mp membership with earlier | last
      · exact store.versions _ data earlier
      · rw [List.mem_singleton.mp last]
        exact stored
  | fail =>
      exact ⟨store.versions,
        fun other membership => store.inFlight other (List.mem_of_mem_eraseIdx membership)⟩

/-- Only a document listened to is delivered. -/
theorem mem_listeners_of_deliver {documentID : String} {version : Nat}
    (hstep : app.step? (.deliver documentID version) = some next) : documentID ∈ app.listeners := by
  by_contra habsent
  rw [App.step?, if_neg habsent] at hstep
  cases hstep

/-- A version with another match stored, shown to the same players. -/
theorem Shown.finish {competition : Competition} (shown : Shown created users competition)
    {table finished : CompetitionTable} (htable : competition.competitionTable = some table)
    {i j : Nat} {played : Match} (isAt : played.At i j) (hne : i ≠ j)
    (hfinished : table.finishMatch played = .ok finished) :
    Shown created users { competition with competitionTable := some finished } := by
  obtain ⟨documentID, origin, hid, horigin, keeps, plays⟩ := shown
  obtain ⟨found, hfound, mirrored⟩ := keeps.table
  rw [htable] at hfound
  cases hfound
  exact ⟨documentID, origin, hid, horigin,
    { keeps with table := ⟨finished, rfl, mirrored.finishMatch isAt hne hfinished⟩ }, plays⟩

/-- A snapshot of the list has documents of the users alone. -/
def Answered (users : List String) (app : App) : Action → Prop
  | .receiveList chosen => ∀ document ∈ app.documents chosen,
      ∃ uid ∈ users, Database.hasAccess uid document.data = true
  | _ => True

theorem DeviceSound.step (sound : DeviceSound created users app)
    (store : StoreSound created app) {action : Action} (answered : Answered users app action)
    (hstep : app.step? action = some next) : DeviceSound created users next := by
  cases stepped_of_step hstep with
  | receiveNothing | chooseNothing => exact sound
  | @receiveList chosen =>
      refine { sound with competitions := ?_ }
      intro competition membership
      rw [App.sortedByDate, List.mem_insertionSort, Database.getAllCompetitions,
        Database.appendDecoded_eq] at membership
      obtain ⟨document, hdocument, hdecode⟩ := List.mem_filterMap.mp membership
      obtain ⟨uid, huid, haccess⟩ := answered document hdocument
      obtain ⟨entry, _, hentry⟩ := List.mem_filterMap.mp hdocument
      obtain ⟨data, hdata, rfl⟩ := Option.map_eq_some_iff.mp hentry
      have stored := store.versions entry.1 data (List.mem_of_getElem? hdata)
      exact stored.shown hdecode (stored.plays huid haccess)
  | @pressCompetition index chosen table closed hchosen htable =>
      have shown := sound.competitions chosen (List.mem_of_getElem? hchosen)
      refine { sound with shown := ?_, opened := ?_, listeners := ?_ }
      · intro competition hcompetition
        cases hcompetition
        exact shown
      · intro screen opened hscreen hopened
        cases hscreen
        cases hopened
      · intro documentID membership
        rcases List.mem_append.mp membership with earlier | last
        · exact sound.listeners documentID earlier
        · obtain ⟨id, origin, hid, _, _, plays⟩ := shown
          rw [hid] at last
          rw [List.mem_singleton.mp last]
          exact plays
  | back =>
      refine { sound with opened := ?_ }
      intro screen opened hscreen
      cases hscreen
  | @choose i j screen opened hscreen hne hi hj hopened =>
      refine { sound with opened := ?_ }
      intro later again hlater hagain
      cases hlater
      cases hagain
      obtain ⟨shown, table, hshown, htable, found⟩ := chooseMatch_cases hopened
      obtain ⟨documentID, origin, _, _, keeps, _⟩ := sound.shown shown hshown
      obtain ⟨other, hother, mirrored⟩ := keeps.table
      rw [htable] at hother
      cases hother
      exact ⟨i, j, hne, mirrored.cell i j _ found⟩
  | @finish a b screen opened competition document hscreen hopened hwinning =>
      obtain ⟨before, table, finished, hbefore, htable, hfinished, rfl, hid, _⟩ :=
        winning_cases hwinning
      obtain ⟨i, j, hne, isAt⟩ := sound.opened screen opened hscreen hopened
      have shown := sound.shown before hbefore
      refine { sound with shown := ?_, opened := ?_, finished := ?_ }
      · intro competition hcompetition
        cases hcompetition
        exact shown.finish htable (isAt.makeMatch a b) hne hfinished
      · intro later again hlater hagain
        cases hlater
        cases hagain
        exact ⟨i, j, hne, isAt.makeMatch a b⟩
      · intro entry membership
        rcases List.mem_append.mp membership with earlier | last
        · exact sound.finished entry earlier
        · obtain ⟨documentID, _, hsame, _, _, plays⟩ := shown
          rw [hid] at hsame
          cases hsame
          rw [List.mem_singleton.mp last]
          exact plays
  | dismiss =>
      refine { sound with opened := ?_ }
      intro screen opened hscreen hopened
      cases hscreen
      cases hopened
  | @deliver documentID version data hdata =>
      have stored := store.versions documentID data (List.mem_of_getElem? hdata)
      have plays := sound.listeners documentID (mem_listeners_of_deliver hstep)
      refine { sound with shown := ?_ }
      intro competition hcompetition
      unfold receiveSnapshot at hcompetition
      split at hcompetition
      · rename_i received hdecode
        cases hcompetition
        exact stored.shown hdecode plays
      · exact sound.shown competition hcompetition
  | commit | fail => exact { sound with }

/-! ## Runs of all devices -/

namespace Club

structure Sound {ι : Type} (s : Club ι) : Prop where
  sent : ∀ documentID origin, s.created documentID = some origin → Sent origin
  versions : ∀ documentID data, data ∈ s.versions documentID →
    Stored s.created documentID data
  inFlight : ∀ document ∈ s.inFlight, Stored s.created document.documentID document.data
  devices : ∀ device, DeviceSound s.created (s.users device) (s.devices device)

variable {ι : Type} [DecidableEq ι] {s t : Club ι}

omit [DecidableEq ι] in
theorem Sound.store (sound : s.Sound) (device : ι) : StoreSound s.created (s.app device) :=
  ⟨sound.versions, sound.inFlight⟩

omit [DecidableEq ι] in
theorem Sound.device (sound : s.Sound) (device : ι) :
    DeviceSound s.created (s.users device) (s.app device) :=
  { sound.devices device with }

/-- One device is changed, and maybe its users. -/
theorem forall_update_device {users : ι → List String} {devices : ι → App} (device : ι)
    {more : List String} (hdevice : DeviceSound created more next)
    (others : ∀ other, DeviceSound created (users other) (devices other)) (other : ι) :
    DeviceSound created (Function.update users device more other)
      (Function.update devices device next other) := by
  by_cases hsame : other = device
  · subst hsame
    rw [Function.update_self, Function.update_self]
    exact hdevice
  · rw [Function.update_of_ne hsame, Function.update_of_ne hsame]
    exact others other

omit [DecidableEq ι] in
theorem answered_of_isAnswered {device : ι} {action : Navigation.Action}
    (answered : s.isAnswered device action = true) :
    Answered (s.users device) (s.app device) action := by
  cases action with
  | receiveList chosen =>
      intro document membership
      obtain ⟨uid, huid, haccess⟩ :=
        (Option.any_eq_true _ _).mp (List.all_eq_true.mp answered document membership)
      exact ⟨uid, List.mem_of_mem_head? huid, haccess⟩
  | _ => trivial

theorem Sound.step (sound : s.Sound) {action : Club.Action ι} (hstep : s.step? action = some t) :
    t.Sound := by
  cases stepped_of_step hstep with
  | @signIn device uid =>
      refine { sound with devices := forall_update_device device ?_ sound.devices }
      have before := (sound.devices device).mono (fun _ _ => id)
        (List.subset_cons_self uid (s.users device))
      refine { before with competitions := ?_, opened := ?_ }
      · intro competition membership
        cases membership
      · intro screen opened hscreen
        cases hscreen
  | notSent => exact sound
  | @sent screen title now documentID origin written tapped hnew =>
      obtain ⟨sent, hwritten, _⟩ := Sent.of_tap tapped
      have known : ∀ other found, s.created other = some found →
          Function.update s.created documentID (some origin) other = some found := by
        intro other found hfound
        rw [Function.update_of_ne _, hfound]
        rintro rfl
        rw [hnew] at hfound
        cases hfound
      refine ⟨?_, ?_, ?_, ?_⟩
      · apply (Function.forall_update_iff s.created fun _ held =>
          ∀ found, held = some found → Sent found).mpr
        refine ⟨?_, fun other _ => sound.sent other⟩
        intro found hfound
        cases hfound
        exact sent
      · intro other data membership
        exact (sound.versions other data membership).mono known
      · intro document membership
        rcases List.mem_append.mp membership with earlier | last
        · exact (sound.inFlight document earlier).mono known
        · rw [List.mem_singleton.mp last]
          exact ⟨origin, _, Function.update_self .., Database.decodeCompetition_dictionary
            hwritten documentID, sent.wellFormed.keeps.readBack documentID⟩
      · intro device
        exact (sound.devices device).mono known (List.Subset.refl _)
  | @onDevice device action app answered happ =>
      have store := (sound.store device).step (sound.device device) happ
      have hdevice := (sound.device device).step (sound.store device)
        (answered_of_isAnswered answered) happ
      refine ⟨sound.sent, store.versions, store.inFlight, ?_⟩
      intro other
      have hother := forall_update_device device hdevice sound.devices other
      rw [Function.update_eq_self] at hother
      exact hother

omit [DecidableEq ι] in
theorem sound_start : Sound ({} : Club ι) := by
  refine ⟨?_, ?_, ?_, ?_⟩
  · intro documentID origin hnone
    cases hnone
  · intro documentID data membership
    cases membership
  · intro document membership
    cases membership
  · intro device
    exact deviceSound_fresh

theorem sound_of_run {actions : List (Club.Action ι)} (hrun : run? step? {} actions = some s) :
    s.Sound :=
  run?_invariant (P := Sound) (fun sound hstep => sound.step hstep) sound_start hrun

/-! ## What all runs keep -/

/--
However the devices create, open, play and write competitions, and whichever snapshots
reach them: every stored and every pending version of a document is a competition with
the title, date and users with access that it was created with, with its players up to
document ids, and with a mirrored table of its own size.  The query of the list finds it
for its players and for no one else.
-/
theorem documents_keep_competition {actions : List (Club.Action ι)}
    (hrun : run? step? {} actions = some s) {documentID : String} {data : Fields}
    (written : data ∈ s.versions documentID ∨ ⟨documentID, data⟩ ∈ s.inFlight) :
    ∃ origin version, s.created documentID = some origin ∧
      Database.decodeCompetition ⟨documentID, data⟩ = some version ∧ origin.Keeps version ∧
      ∀ uid, Database.hasAccess uid data = true ↔
        ∃ player ∈ origin.players, player.id = some uid := by
  have sound := sound_of_run hrun
  have stored : Stored s.created documentID data := by
    rcases written with hversion | hpending
    · exact sound.versions documentID data hversion
    · exact sound.inFlight _ hpending
  obtain ⟨origin, version, horigin, hdecode, keeps⟩ := stored
  refine ⟨origin, version, horigin, hdecode, keeps, ?_⟩
  intro uid
  rw [← (sound.sent documentID origin horigin).mem_access_iff, ← keeps.accessUsersIdArray]
  exact hasAccess_iff_of_decodes hdecode uid

/-- A competition is created, its match is finished on one device, and another one lists it. -/
def twoDevices : List (Club.Action Bool) :=
  [.signIn true "u1", .signIn false "u2",
    .tapAddCompetitionButton
      { user := some .anna, playersArray := [.anna, .boris] } (some "Cup")
      "2022-12-20 10:00:00 +0000" "c1",
    .onDevice true (.commit 0), .onDevice true (.receiveList [("c1", 0)]),
    .onDevice true (.pressCompetition 0), .onDevice true (.choose 0 1),
    .onDevice true (.finish 2 1), .onDevice false (.commit 0),
    .onDevice false (.receiveList [("c1", 1)])]

theorem documents_keep_competition_two_devices :
    ∃ (final : Club Bool) (data : Fields), run? step? {} twoDevices = some final ∧
      (final.versions "c1").getLast? = some data ∧ (final.versions "c1").length = 2 ∧
      ∃ origin version, final.created "c1" = some origin ∧
        Database.decodeCompetition ⟨"c1", data⟩ = some version ∧ origin.Keeps version ∧
        ∀ uid, Database.hasAccess uid data = true ↔
          ∃ player ∈ origin.players, player.id = some uid := by
  have hcheck : ((run? step? {} twoDevices).bind fun final =>
      (final.versions "c1").getLast?.map fun data => (final, data)).any
      (fun found => (found.1.versions "c1").length = 2) = true := by
    decide +kernel
  obtain ⟨⟨final, data⟩, hfound, hlength⟩ := (Option.any_eq_true _ _).mp hcheck
  obtain ⟨_, hrun, hrest⟩ := Option.bind_eq_some_iff.mp hfound
  obtain ⟨_, hlast, htuple⟩ := Option.map_eq_some_iff.mp hrest
  cases htuple
  exact ⟨final, data, hrun, hlast, of_decide_eq_true hlength,
    documents_keep_competition hrun (Or.inl (List.mem_of_getLast? hlast))⟩

/-- One of the users that a device has been signed in as is a player of the competition. -/
def HasPlayer (s : Club ι) (device : ι) (documentID : String) : Prop :=
  ∃ origin, s.created documentID = some origin ∧
    ∃ player ∈ origin.players, ∃ uid ∈ s.users device, player.id = some uid

omit [DecidableEq ι] in
theorem Sound.hasPlayer (sound : s.Sound) {device : ι} {documentID : String}
    (plays : Plays s.created (s.users device) documentID) : s.HasPlayer device documentID := by
  obtain ⟨origin, horigin, uid, huid, haccess⟩ := plays
  obtain ⟨player, hplayer, hid⟩ :=
    ((sound.sent documentID origin horigin).mem_access_iff uid).mp haccess
  exact ⟨origin, horigin, player, hplayer, uid, huid, hid⟩

/--
In every run a device only has competitions in its list and on its screen, listeners and
finished matches of competitions that one of its users plays, also when the matches of
one competition are stored in the table of another one.
-/
theorem only_players_see_and_write {actions : List (Club.Action ι)}
    (hrun : run? step? {} actions = some s) (device : ι) :
    (∀ competition, competition ∈ (s.devices device).competitions ∨
        (s.devices device).competition = some competition →
      ∃ documentID origin, competition.id = some documentID ∧
        s.created documentID = some origin ∧ origin.Keeps competition ∧
        s.HasPlayer device documentID) ∧
      (∀ documentID ∈ (s.devices device).listeners, s.HasPlayer device documentID) ∧
      ∀ entry ∈ (s.devices device).finished, s.HasPlayer device entry.document.documentID := by
  have sound := sound_of_run hrun
  have held := sound.devices device
  refine ⟨?_, ?_, ?_⟩
  · intro competition hcompetition
    have shown : Shown s.created (s.users device) competition := by
      rcases hcompetition with listed | hshown
      · exact held.competitions competition listed
      · exact held.shown competition hshown
    obtain ⟨documentID, origin, hid, horigin, keeps, plays⟩ := shown
    exact ⟨documentID, origin, hid, horigin, keeps, sound.hasPlayer plays⟩
  · intro documentID membership
    exact sound.hasPlayer (held.listeners documentID membership)
  · intro entry membership
    exact sound.hasPlayer (held.finished entry membership)

theorem only_players_see_and_write_two_devices :
    ∃ final : Club Bool, run? step? {} twoDevices = some final ∧
      (final.devices true).finished.length = 1 ∧ (final.devices false).competitions.length = 1 ∧
      (∀ entry ∈ (final.devices true).finished,
        final.HasPlayer true entry.document.documentID) ∧
      ∀ competition ∈ (final.devices false).competitions,
        ∃ documentID origin, competition.id = some documentID ∧
          final.created documentID = some origin ∧ origin.Keeps competition ∧
          final.HasPlayer false documentID := by
  have hcheck : (run? step? {} twoDevices).any (fun final =>
      (final.devices true).finished.length = 1 ∧
        (final.devices false).competitions.length = 1) = true := by
    decide +kernel
  obtain ⟨final, hrun, hlengths⟩ := (Option.any_eq_true _ _).mp hcheck
  obtain ⟨hfinished, hlisted⟩ := of_decide_eq_true hlengths
  refine ⟨final, hrun, hfinished, hlisted, ?_, ?_⟩
  · exact (only_players_see_and_write hrun true).2.2
  · intro competition membership
    exact (only_players_see_and_write hrun false).1 competition (Or.inl membership)

end Club

end AnyCompetition.Navigation
