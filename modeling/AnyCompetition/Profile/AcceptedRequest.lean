import AnyCompetition.Profile.KeptFriends
import AnyCompetition.Profile.KeptUsers

/-!
# A request can always be accepted

Whatever has happened before, the user who has a request can load the profile anew, open
the request and accept it: the lookup finds the account of the requester, and the write
puts this account after all friends that are stored at that time.
-/

namespace AnyCompetition.Profile.Friendship

open Json GuardedRun Database

/-! ## Lookups of registered users -/

/-- In a list without repeated keys the items with a key are the one with it. -/
theorem filter_eq_singleton_of_nodup_map {α β : Type} [DecidableEq β] {key : α → β}
    {items : List α} (nodup : (items.map key).Nodup) {item : α} (membership : item ∈ items) :
    (items.filter fun other => key other = key item) = [item] := by
  induction items with
  | nil => cases membership
  | cons first rest ih =>
      obtain ⟨hfirst, hrest⟩ := List.nodup_cons.mp nodup
      rcases List.mem_cons.mp membership with rfl | later
      · rw [List.filter_cons_of_pos (by simp), List.filter_eq_nil_iff.mpr]
        intro other hother
        rw [decide_eq_true_eq]
        intro hsame
        exact hfirst (hsame ▸ List.mem_map_of_mem hother)
      · have hne : key first ≠ key item := by
          intro hsame
          exact hfirst (hsame ▸ List.mem_map_of_mem later)
        rw [List.filter_cons_of_neg (by simpa using hne), ih hrest later]

/-- The lookup goes through when every document has an id. -/
theorem exists_getUserData {documents : List Document}
    (ids : ∀ document ∈ documents, (storedId document).isSome = true) (uid : String) :
    ∃ found, getUserData uid documents = .ok found := by
  suffices hloop : ∀ received, ∃ found, documents.foldlM (receiveUser uid) received = .ok found
    from hloop []
  induction documents with
  | nil => exact fun received => ⟨received, rfl⟩
  | cons document rest ih =>
      intro received
      have hnext : ∃ next, receiveUser uid received document = .ok next := by
        obtain ⟨id, hid⟩ := Option.isSome_iff_exists.mp (ids document List.mem_cons_self)
        obtain ⟨value, hlookup, hvalue⟩ := Option.bind_eq_some_iff.mp hid
        cases value with
        | string text =>
            rw [receiveUser, hlookup]
            dsimp only
            split
            · cases decodeUser document <;> exact ⟨_, rfl⟩
            · exact ⟨_, rfl⟩
        | _ => cases hvalue
      obtain ⟨next, hnext⟩ := hnext
      obtain ⟨found, hfound⟩ :=
        ih (fun other membership => ids other (List.mem_cons_of_mem _ membership)) next
      refine ⟨found, ?_⟩
      rw [List.foldlM_cons, hnext]
      exact hfound

/-- Every document is of a user that decodes and has an id of its own. -/
structure Registered (documents : List Document) : Prop where
  decodes : ∀ document ∈ documents, (decodeUser document).isSome = true
  ids : ∀ document ∈ documents, (storedId document).isSome = true
  unique : (documents.map storedId).Nodup

/-- A registered user is looked up alone. -/
theorem Registered.getUserData_eq {documents : List Document}
    (registered : Registered documents) {document : Document} (membership : document ∈ documents)
    {uid : String} (hid : storedId document = some uid) :
    ∃ user, decodeUser document = some user ∧ getUserData uid documents = .ok [user] := by
  obtain ⟨user, hdecode⟩ :=
    Option.isSome_iff_exists.mp (registered.decodes document membership)
  obtain ⟨found, hfound⟩ := exists_getUserData registered.ids uid
  have haccounts : accounts uid documents = [document] := by
    rw [← filter_eq_singleton_of_nodup_map registered.unique membership, hid]
    rfl
  refine ⟨user, hdecode, ?_⟩
  rw [hfound, Database.getUserData_eq hfound, haccounts, List.filterMap_cons_some hdecode,
    List.filterMap_nil]

theorem Keeps.storedId_eq {first second : Document} (keeps : Keeps first second) :
    storedId second = storedId first := by
  rw [storedId, storedId, keeps.lookup "id" (by decide) (by decide)]

/-- Each item of the one list is related to one of the other. -/
theorem forall₂_exists_right {α β : Type} {R : α → β → Prop} {first : List α} {second : List β}
    (related : List.Forall₂ R first second) {item : β} (membership : item ∈ second) :
    ∃ origin ∈ first, R origin item := by
  induction related with
  | nil => cases membership
  | cons hrelated _ ih =>
      rcases List.mem_cons.mp membership with rfl | later
      · exact ⟨_, List.mem_cons_self, hrelated⟩
      · obtain ⟨origin, horigin, hsame⟩ := ih later
        exact ⟨origin, List.mem_cons_of_mem _ horigin, hsame⟩

/-- Registered users stay registered. -/
theorem Registered.of_keeps {first second : List Document} (registered : Registered first)
    (keeps : List.Forall₂ Keeps first second) : Registered second := by
  have hids : second.map storedId = first.map storedId := by
    clear registered
    induction keeps with
    | nil => rfl
    | cons keeps _ ih => rw [List.map_cons, List.map_cons, keeps.storedId_eq, ih]
  refine ⟨?_, ?_, hids ▸ registered.unique⟩
  · intro document membership
    obtain ⟨origin, horigin, hkeeps⟩ := forall₂_exists_right keeps membership
    exact hkeeps.decodes (registered.decodes origin horigin)
  · intro document membership
    obtain ⟨origin, horigin, hkeeps⟩ := forall₂_exists_right keeps membership
    rw [hkeeps.storedId_eq]
    exact registered.ids origin horigin

namespace Community

variable {ι : Type} [DecidableEq ι] {c : Community ι} {s : State ι} {signIn : ι}

/-- Every version has the users of the start. -/
theorem keeps_start {actions : List (Action ι)} (hrun : run? c.step? c.start actions = some s) :
    ∀ documents ∈ s.versions, List.Forall₂ Keeps c.documents documents := by
  refine run?_invariant
    (P := fun s : State ι => ∀ documents ∈ s.versions, List.Forall₂ Keeps c.documents documents)
    ?_ ?_ hrun
  · intro s action t kept hstep
    rcases versions_step hstep with hsame | ⟨current, write, hcurrent, hversions⟩
    · rw [hsame]
      exact kept
    · rw [hversions]
      intro documents membership
      rcases List.mem_append.mp membership with earlier | last
      · exact kept documents earlier
      · rw [List.mem_singleton.mp last]
        exact forall₂_keeps_trans (kept current (List.mem_of_getLast? hcurrent))
          (write.keeps current)
  · intro documents membership
    rw [List.mem_singleton.mp membership]
    exact List.forall₂_same.mpr fun document _ => .refl document

/-! ## Taps one after the other -/

/-- A sign-in loads its user from a version, opens a request and accepts it; the lookup is
answered from the same version and the write is committed. -/
def accepting (signIn : ι) (version request lookup write : Nat) : List (Action ι) :=
  [Tap.requestUserData version, .presentNotificationController, .tapToNotification request,
      .tapAcceptButton].map (.onScreens signIn) ++
    [.answer signIn lookup version, .commit write]

/-- The state with other screens of one sign-in. -/
def withScreens (s : State ι) (signIn : ι) (screens : Screens) : State ι :=
  { s with screens := Function.update s.screens signIn screens }

@[simp]
theorem screens_withScreens (s : State ι) (signIn : ι) (screens : Screens) :
    (withScreens s signIn screens).screens signIn = screens :=
  Function.update_self ..

theorem screens_withScreens_of_ne {other : ι} (hne : other ≠ signIn) {screens : Screens} :
    (withScreens s signIn screens).screens other = s.screens other :=
  Function.update_of_ne hne _ _

/-- Taps of one sign-in only change its screens. -/
theorem run?_taps {taps : List Tap} {screens next : Screens}
    (tapped : taps.foldlM (fun screens tap => screens.step? c signIn s.versions tap) screens =
      some next) :
    run? c.step? (withScreens s signIn screens) (taps.map (.onScreens signIn)) =
      some (withScreens s signIn next) := by
  induction taps generalizing screens with
  | nil =>
      cases tapped
      rfl
  | cons tap rest ih =>
      rw [List.foldlM_cons] at tapped
      obtain ⟨middle, hmiddle, hrest⟩ := Option.bind_eq_some_iff.mp tapped
      rw [List.map_cons, run?_cons_eq_some_iff]
      refine ⟨withScreens s signIn middle, ?_, ih hrest⟩
      rw [step?, screens_withScreens]
      change (screens.step? c signIn s.versions tap).map _ = _
      rw [hmiddle, Option.map_some]
      simp only [withScreens, Function.update_idem]

/-- Taps of one sign-in, from the screens it has. -/
theorem run?_own_taps {taps : List Tap} {next : Screens}
    (tapped : taps.foldlM (fun screens tap => screens.step? c signIn s.versions tap)
      (s.screens signIn) = some next) :
    run? c.step? s (taps.map (.onScreens signIn)) = some (withScreens s signIn next) := by
  have hrun := run?_taps tapped
  rwa [show withScreens s signIn (s.screens signIn) = s by
    rw [withScreens, Function.update_eq_self]] at hrun

omit [DecidableEq ι] in
/-- A user that is looked up alone becomes the host user. -/
theorem requestUserData_eq {screens : Screens} {versions : List (List Document)} {version : Nat}
    {documents : List Document} (hversion : versions[version]? = some documents) {copy : User}
    (hload : getUserData (c.uid signIn) documents = .ok [copy]) :
    screens.step? c signIn versions (.requestUserData version) =
      some { screens with hostUser := some copy } := by
  rw [Screens.step?, hversion, Option.bind_some, hload]
  rfl

omit [DecidableEq ι] in
/-- The host user is loaded, one of its requests is opened and accepted. -/
theorem taps_accept (screens : Screens) {versions : List (List Document)} {version index : Nat}
    {documents : List Document} (hversion : versions[version]? = some documents) {copy : User}
    (hload : getUserData (c.uid signIn) documents = .ok [copy])
    {request : AddFriendNotification} (hrequest : copy.notificationArray[index]? = some request)
    (hid : request.userFriend.id.isSome = true) :
    [Tap.requestUserData version, .presentNotificationController, .tapToNotification index,
        .tapAcceptButton].foldlM (fun screens tap => screens.step? c signIn versions tap) screens =
      some { screens with
        hostUser := some copy
        notifications := some copy
        notification := some (copy, request.userFriend)
        lookups := screens.lookups ++ [(copy, request.userFriend)] } := by
  rw [List.foldlM_cons, requestUserData_eq hversion hload]
  simp only [List.foldlM_cons, List.foldlM_nil, Screens.step?, Screens.acceptFriendRequesr,
    Option.bind_eq_bind, Option.bind_some, Option.map_some, hrequest, hid, if_true]
  rfl

/-- The lookup of an accept is answered, and what it writes is committed. -/
theorem run?_answer_commit {lookup version : Nat} {asked : User × User}
    (hlookup : (s.screens signIn).lookups[lookup]? = some asked) {id : String}
    (hid : asked.2.id = some id) {documents current : List Document}
    (hversion : s.versions[version]? = some documents)
    {user : User} (hload : getUserData id documents = .ok [user])
    (hcurrent : s.versions.getLast? = some current) :
    ∃ final, run? c.step? s [.answer signIn lookup version, .commit s.inFlight.length] =
        some final ∧
      final.versions = s.versions ++ [Database.acceptFriend asked.1 current user] := by
  let answered : State ι := { s with
    screens := Function.update s.screens signIn { s.screens signIn with
      lookups := (s.screens signIn).lookups.eraseIdx lookup }
    inFlight := s.inFlight ++ [.acceptFriend asked.1 user] }
  have hanswer : c.step? s (.answer signIn lookup version) = some answered := by
    simp only [step?, hlookup, Option.bind_some, hid, hversion, hload]
    rfl
  let final : State ι := { answered with
    versions := s.versions ++ [Database.acceptFriend asked.1 current user]
    inFlight := answered.inFlight.eraseIdx s.inFlight.length }
  have hcommit : c.step? answered (.commit s.inFlight.length) = some final := by
    have hissued : answered.inFlight[s.inFlight.length]? = some (.acceptFriend asked.1 user) :=
      List.getElem?_concat_length
    rw [step?, hissued, Option.bind_some]
    change s.versions.getLast?.map _ = _
    rw [hcurrent, Option.map_some]
    rfl
  refine ⟨final, ?_, rfl⟩
  rw [run?_cons_eq_some_iff]
  exact ⟨answered, hanswer, by rw [run?_singleton, hcommit]⟩

/--
From every reachable state: when the user of a sign-in has a request in the current
version of the collection, from a registered user, then this sign-in alone can accept it,
and the one entry written puts the requester after all friends of its user.
-/
theorem request_can_be_accepted (registered : Registered c.documents)
    {actions : List (Action ι)} (hrun : run? c.step? c.start actions = some s)
    {documents : List Document} (hcurrent : s.versions.getLast? = some documents)
    {receiver requester : Document} (hreceiver : receiver ∈ documents)
    (hrequester : requester ∈ documents) (hself : storedId receiver = some (c.uid signIn))
    {friends : List String} (hfriends : friendsEntry receiver = some (some friends))
    {request : AddFriendNotification} (hrequest : request ∈ requestsIn receiver)
    (hasked : request.userFriend.id = storedId requester) :
    ∃ index final, run? c.step? s (accepting signIn (s.versions.length - 1) index
        (s.screens signIn).lookups.length s.inFlight.length) = some final ∧
      final.versions = s.versions ++ [updateData documents receiver.documentID "friends"
        (.array ((friends ++ [requester.documentID]).map .string))] := by
  have current := registered.of_keeps
    (keeps_start hrun documents (List.mem_of_getLast? hcurrent))
  have hversion : s.versions[s.versions.length - 1]? = some documents := by
    rw [← List.getLast?_eq_getElem?, hcurrent]
  obtain ⟨id, hid⟩ := Option.isSome_iff_exists.mp (current.ids requester hrequester)
  obtain ⟨copy, hcopy, hload⟩ := current.getUserData_eq hreceiver hself
  obtain ⟨user, huser, hlookup⟩ := current.getUserData_eq hrequester hid
  rw [requestsIn_of_decodes hcopy] at hrequest
  obtain ⟨index, hindex⟩ := List.getElem?_of_mem hrequest
  rw [hid] at hasked
  have hopened : request.userFriend.id.isSome = true := by
    rw [hasked]
    rfl
  let opened : Screens := { s.screens signIn with
    hostUser := some copy
    notifications := some copy
    notification := some (copy, request.userFriend)
    lookups := (s.screens signIn).lookups ++ [(copy, request.userFriend)] }
  have htaps := run?_own_taps (taps_accept (s.screens signIn) hversion hload hindex hopened)
  have hasking : ((withScreens s signIn opened).screens signIn).lookups[
      (s.screens signIn).lookups.length]? = some (copy, request.userFriend) := by
    rw [screens_withScreens]
    exact List.getElem?_concat_length
  obtain ⟨final, hfinal, hversions⟩ :=
    run?_answer_commit (c := c) hasking hasked hversion hlookup hcurrent
  refine ⟨index, final, run?_trans htaps hfinal, ?_⟩
  rw [friendsEntry_of_decodes hcopy] at hfriends
  rw [hversions]
  simp only [Database.acceptFriend, decodeUser_docId hcopy, decodeUser_docId huser,
    Option.some.inj hfriends, Option.map_some, ofOption]
  rfl

theorem registered_twoUsers : Registered twoUsers.documents := by
  refine ⟨?_, ?_, by decide⟩
  · intro document membership
    rcases List.mem_pair.mp membership with rfl | rfl
    · rfl
    · rfl
  · intro document membership
    rcases List.mem_pair.mp membership with rfl | rfl
    · rfl
    · rfl

/-- The first request in the second of two documents, after the two documents. -/
def secondRequest? : List Document → Option (Document × Document × AddFriendNotification)
  | [requester, receiver] => (requestsIn receiver).head?.map (requester, receiver, ·)
  | _ => none

theorem secondRequest?_eq_some {documents : List Document} {requester receiver : Document}
    {request : AddFriendNotification}
    (h : secondRequest? documents = some (requester, receiver, request)) :
    documents = [requester, receiver] ∧ request ∈ requestsIn receiver := by
  unfold secondRequest? at h
  split at h
  · obtain ⟨_, hrequest, hsame⟩ := Option.map_eq_some_iff.mp h
    cases hsame
    exact ⟨rfl, List.mem_of_mem_head? hrequest⟩
  · cases h

theorem request_can_be_accepted_two_users :
    ∃ (asked : State Bool) (receiver requester : Document) (request : AddFriendNotification),
      run? twoUsers.step? twoUsers.start asks = some asked ∧
      asked.versions.getLast? = some [requester, receiver] ∧ request ∈ requestsIn receiver ∧
      ∃ index final, run? twoUsers.step? asked (accepting true (asked.versions.length - 1) index
          (asked.screens true).lookups.length asked.inFlight.length) = some final ∧
        final.versions = asked.versions ++
          [updateData [requester, receiver] receiver.documentID "friends"
            (.array (([] ++ [requester.documentID]).map .string))] := by
  have hcheck : ((run? twoUsers.step? twoUsers.start asks).bind fun asked =>
      (asked.versions.getLast?.bind secondRequest?).map (asked, ·)).any
      (fun found => storedId found.2.2.1 = some (twoUsers.uid true) ∧
        friendsEntry found.2.2.1 = some (some []) ∧
        found.2.2.2.userFriend.id = storedId found.2.1) = true := by
    decide +kernel
  obtain ⟨⟨asked, requester, receiver, request⟩, hfound, hfacts⟩ :=
    (Option.any_eq_true _ _).mp hcheck
  obtain ⟨hself, hfriends, hasked⟩ := of_decide_eq_true hfacts
  obtain ⟨_, hrun, hrest⟩ := Option.bind_eq_some_iff.mp hfound
  obtain ⟨_, hsecond, hsame⟩ := Option.map_eq_some_iff.mp hrest
  cases hsame
  obtain ⟨documents, hcurrent, hrequest⟩ := Option.bind_eq_some_iff.mp hsecond
  obtain ⟨rfl, hmember⟩ := secondRequest?_eq_some hrequest
  exact ⟨asked, receiver, requester, request, hrun, hcurrent, hmember,
    request_can_be_accepted registered_twoUsers hrun hcurrent
      (List.mem_cons_of_mem _ List.mem_cons_self) List.mem_cons_self hself hfriends hmember
      hasked⟩

end Community

end AnyCompetition.Profile.Friendship
