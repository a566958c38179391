import AnyCompetition.Database.UserEntries
import AnyCompetition.Profile.Friendship

/-!
# Copies of the signed-in user

The screens of a sign-in hand one copy of its user on to each other, and an accept writes
the friends of such a copy.  A property of all documents and one of all copies hold in
every run when reading a document and both writes keep them.
-/

namespace AnyCompetition.Profile.Friendship

open Json GuardedRun Database

/-- All copies of the signed-in user on the screens have the property. -/
structure Hosts (P : User → Prop) (screens : Screens) : Prop where
  hostUser : ∀ copy, screens.hostUser = some copy → P copy
  findToAddUser : ∀ copy search, screens.findToAddUser = some (some copy, search) → P copy
  friends : ∀ copy, screens.friends = some (some copy) → P copy
  friend : ∀ copy chosen, screens.friend = some (copy, chosen) → P copy
  notifications : ∀ copy, screens.notifications = some copy → P copy
  notification : ∀ copy requestingUser, screens.notification = some (copy, requestingUser) →
    P copy

variable {P : User → Prop} {Q : Document → Prop}

theorem hosts_start : Hosts P {} := ⟨nofun, nofun, nofun, nofun, nofun, nofun⟩

theorem Hosts.imp {P' : User → Prop} {screens : Screens} (implies : ∀ copy, P copy → P' copy)
    (hosts : Hosts P screens) : Hosts P' screens where
  hostUser copy hcopy := implies copy (hosts.hostUser copy hcopy)
  findToAddUser copy search hcopy := implies copy (hosts.findToAddUser copy search hcopy)
  friends copy hcopy := implies copy (hosts.friends copy hcopy)
  friend copy chosen hcopy := implies copy (hosts.friend copy chosen hcopy)
  notifications copy hcopy := implies copy (hosts.notifications copy hcopy)
  notification copy requestingUser hcopy :=
    implies copy (hosts.notification copy requestingUser hcopy)

theorem Hosts.tapToCell {screens : Screens} (hosts : Hosts P screens) {hostUser : Option User}
    (host : ∀ copy, hostUser = some copy → P copy) (user : User) :
    Hosts P (screens.tapToCell hostUser user) := by
  cases hostUser with
  | none => exact hosts
  | some hostUser =>
      refine { hosts with friend := ?_ }
      rintro _ _ ⟨⟩
      exact host hostUser rfl

namespace Community

variable {ι : Type} {c : Community ι} {document : Document}

theorem mem_of_toOption {uid : String} {documents : List Document} {found : List User}
    (hfound : (getUserData uid documents).toOption = some found) {user : User}
    (membership : user ∈ found) :
    ∃ document ∈ accounts uid documents, decodeUser document = some user := by
  cases hlookup : getUserData uid documents with
  | error trap =>
      rw [hlookup] at hfound
      cases hfound
  | ok users =>
      rw [hlookup] at hfound
      cases hfound
      rw [getUserData_eq hlookup] at membership
      exact List.mem_filterMap.mp membership

/-- The documents after an accept: one document has its friends replaced. -/
theorem mem_acceptFriend {receivingUser user : User} {documents : List Document}
    (membership : document ∈ Database.acceptFriend receivingUser documents user) :
    document ∈ documents ∨ ∃ before ∈ documents, ∃ friendDocId,
      receivingUser.docId = some before.documentID ∧ user.docId = some friendDocId ∧
      document = { before with
        data := setKey before.data "friends"
          (ofOption (fun friends => .array (friends.map .string))
            (receivingUser.friends.map fun friends => friends ++ [friendDocId])) } := by
  unfold Database.acceptFriend at membership
  split at membership
  · rename_i docId friendDocId hdocId hfriend
    obtain ⟨before, hbefore, rfl⟩ := List.mem_map.mp membership
    by_cases hsame : before.documentID = docId
    · rw [if_pos hsame]
      exact Or.inr ⟨before, hbefore, friendDocId, hsame ▸ hdocId, hfriend, rfl⟩
    · rw [if_neg hsame]
      exact Or.inl hbefore
  · exact Or.inl membership

/-- A tap hands a copy on or reads one from a document of the account. -/
theorem hosts_step {signIn : ι} {versions : List (List Document)} {screens next : Screens}
    (hosts : Hosts P screens)
    (read : ∀ documents ∈ versions, ∀ document ∈ accounts (c.uid signIn) documents,
      ∀ copy, decodeUser document = some copy → P copy)
    {tap : Tap} (hstep : screens.step? c signIn versions tap = some next) : Hosts P next := by
  cases tap with
  | requestUserData version =>
      obtain ⟨documents, hversion, hrest⟩ := Option.bind_eq_some_iff.mp hstep
      obtain ⟨received, hreceived, rfl⟩ := Option.map_eq_some_iff.mp hrest
      refine { hosts with hostUser := ?_ }
      intro copy hcopy
      rcases mem_of_foldl_some hcopy with hold | membership
      · exact hosts.hostUser copy hold
      · obtain ⟨document, haccount, hdecode⟩ := mem_of_toOption hreceived membership
        exact read documents (List.mem_of_getElem? hversion) document haccount copy hdecode
  | presentNotificationController =>
      obtain ⟨hostUser, hhost, rfl⟩ := Option.map_eq_some_iff.mp hstep
      refine { hosts with notifications := ?_ }
      rintro _ ⟨⟩
      exact hosts.hostUser hostUser hhost
  | tapToNotification index =>
      obtain ⟨hostUser, hhost, hrest⟩ := Option.bind_eq_some_iff.mp hstep
      obtain ⟨request, _, rfl⟩ := Option.map_eq_some_iff.mp hrest
      refine { hosts with notification := ?_ }
      rintro _ _ ⟨⟩
      exact hosts.notifications hostUser hhost
  | tapAcceptButton =>
      obtain ⟨_, _, rfl⟩ := Option.map_eq_some_iff.mp hstep
      unfold Screens.acceptFriendRequesr
      split
      · exact { hosts with }
      · exact hosts
  | tapDeclineButton =>
      obtain ⟨_, _, rfl⟩ := Option.map_eq_some_iff.mp hstep
      exact hosts
  | tapAddFriendButton =>
      cases hstep
      refine { hosts with findToAddUser := ?_ }
      intro copy search hfind
      exact hosts.hostUser copy (Prod.mk.inj (Option.some.inj hfind)).1
  | getAllUsers version =>
      obtain ⟨⟨host, search⟩, hfind, hrest⟩ := Option.bind_eq_some_iff.mp hstep
      obtain ⟨documents, _, rfl⟩ := Option.map_eq_some_iff.mp hrest
      refine { hosts with findToAddUser := ?_ }
      rintro copy _ ⟨⟩
      exact hosts.findToAddUser copy search hfind
  | text query =>
      obtain ⟨⟨host, search⟩, hfind, hrest⟩ := Option.bind_eq_some_iff.mp hstep
      obtain ⟨_, _, rfl⟩ := Option.map_eq_some_iff.mp hrest
      refine { hosts with findToAddUser := ?_ }
      rintro copy _ ⟨⟩
      exact hosts.findToAddUser copy search hfind
  | didSelectRowAt index =>
      obtain ⟨⟨host, search⟩, hfind, hrest⟩ := Option.bind_eq_some_iff.mp hstep
      obtain ⟨choosedUser, _, hrest⟩ := Option.bind_eq_some_iff.mp hrest
      obtain ⟨hostUser, rfl, rfl⟩ := Option.map_eq_some_iff.mp hrest
      refine { hosts with friend := ?_ }
      rintro _ _ ⟨⟩
      exact hosts.findToAddUser hostUser search hfind
  | tapFriendButton =>
      cases hstep
      refine { hosts with friends := ?_ }
      intro copy hcopy
      exact hosts.hostUser copy (Option.some.inj hcopy)
  | tapToCell =>
      cases hstep
      exact hosts.tapToCell hosts.hostUser _
  | tapToCellOfFriends =>
      obtain ⟨hostUser, hshown, rfl⟩ := Option.map_eq_some_iff.mp hstep
      refine hosts.tapToCell ?_ _
      rintro copy rfl
      exact hosts.friends copy hshown

/-- A tap on a friend opens no request and looks nothing up. -/
theorem tapToCell_frame (screens : Screens) (hostUser : Option User) (user : User) :
    (screens.tapToCell hostUser user).notification = screens.notification ∧
      (screens.tapToCell hostUser user).lookups = screens.lookups := by
  cases hostUser with
  | none => exact ⟨rfl, rfl⟩
  | some hostUser => exact ⟨rfl, rfl⟩

/-- Only one tap opens a request, and only one starts a lookup. -/
theorem step_frame {signIn : ι} {versions : List (List Document)} {screens next : Screens}
    {tap : Tap} (hstep : screens.step? c signIn versions tap = some next) :
    ((∃ index, tap = .tapToNotification index) ∨ next.notification = screens.notification) ∧
      (tap = .tapAcceptButton ∨ next.lookups = screens.lookups) := by
  cases tap <;>
    simp only [Screens.step?, Option.bind_eq_some_iff, Option.map_eq_some_iff,
      Option.some.injEq] at hstep <;>
    grind [tapToCell_frame, Screens.acceptFriendRequesr]

/-- A request is opened from those of a copy. -/
theorem notification_step {signIn : ι} {versions : List (List Document)}
    {screens next : Screens} {tap : Tap}
    (hstep : screens.step? c signIn versions tap = some next) {copy requestingUser : User}
    (opened : next.notification = some (copy, requestingUser)) :
    screens.notification = some (copy, requestingUser) ∨
      ∃ request ∈ copy.notificationArray, request.userFriend = requestingUser := by
  rcases (step_frame hstep).1 with ⟨index, rfl⟩ | kept
  · obtain ⟨hostUser, _, hrest⟩ := Option.bind_eq_some_iff.mp hstep
    obtain ⟨request, hrequest, rfl⟩ := Option.map_eq_some_iff.mp hrest
    cases opened
    exact Or.inr ⟨request, List.mem_of_getElem? hrequest, rfl⟩
  · exact Or.inl (kept ▸ opened)

/-- A lookup starts with the request that is accepted. -/
theorem lookups_step {signIn : ι} {versions : List (List Document)}
    {screens next : Screens} {tap : Tap}
    (hstep : screens.step? c signIn versions tap = some next) {lookup : User × User}
    (membership : lookup ∈ next.lookups) :
    lookup ∈ screens.lookups ∨ tap = .tapAcceptButton ∧ screens.notification = some lookup := by
  rcases (step_frame hstep).2 with rfl | kept
  · obtain ⟨asked, hscreen, rfl⟩ := Option.map_eq_some_iff.mp hstep
    unfold Screens.acceptFriendRequesr at membership
    split at membership
    · rcases List.mem_append.mp membership with earlier | last
      · exact Or.inl earlier
      · rw [List.mem_singleton.mp last]
        exact Or.inr ⟨rfl, hscreen⟩
    · exact Or.inl membership
  · exact Or.inl (kept ▸ membership)

/-! ## Documents and copies in all runs -/

/-- Reading and both writes keep the property of all documents and that of all copies. -/
structure Tracks (c : Community ι) (Q : Document → Prop) (P : User → Prop) : Prop where
  start : ∀ document ∈ c.documents, Q document
  read : ∀ document copy, Q document → decodeUser document = some copy → P copy
  addRequest : ∀ document notification, Q document → Q (addRequest notification document)
  setFriends : ∀ document copy friend, Q document → P copy →
    copy.docId = some document.documentID →
      Q { document with
        data := setKey document.data "friends"
          (ofOption (fun friends => .array (friends.map .string))
            (copy.friends.map fun friends => friends ++ [friend])) }

/-- The documents, the copies on the screens and the copies to be written. -/
structure Tracked (Q : Document → Prop) (P : User → Prop) (s : State ι) : Prop where
  versions : ∀ documents ∈ s.versions, ∀ document ∈ documents, Q document
  screens : ∀ signIn, Hosts P (s.screens signIn)
  lookups : ∀ signIn, ∀ lookup ∈ (s.screens signIn).lookups, P lookup.1
  inFlight : ∀ receivingUser user, Write.acceptFriend receivingUser user ∈ s.inFlight →
    P receivingUser

theorem Tracked.imp {Q' : Document → Prop} {P' : User → Prop} {s : State ι}
    (document : ∀ document, Q document → Q' document) (copy : ∀ copy, P copy → P' copy)
    (tracked : Tracked Q P s) : Tracked Q' P' s where
  versions documents hversion other hdocument :=
    document other (tracked.versions documents hversion other hdocument)
  screens signIn := (tracked.screens signIn).imp copy
  lookups signIn lookup membership := copy lookup.1 (tracked.lookups signIn lookup membership)
  inFlight receivingUser user membership :=
    copy receivingUser (tracked.inFlight receivingUser user membership)

/-- At the start only the documents matter. -/
theorem tracked_start (stored : ∀ document ∈ c.documents, Q document) :
    Tracked Q P c.start where
  versions documents hdocuments document hdocument := by
    rw [List.mem_singleton.mp hdocuments] at hdocument
    exact stored document hdocument
  screens _ := hosts_start
  lookups _ _ membership := by cases membership
  inFlight _ _ membership := by cases membership

theorem Tracks.apply (tracks : c.Tracks Q P) {write : Write}
    (copied : ∀ receivingUser user, write = .acceptFriend receivingUser user → P receivingUser)
    {documents : List Document} (stored : ∀ document ∈ documents, Q document) :
    ∀ document ∈ write.apply documents, Q document := by
  intro document membership
  cases write with
  | sendNotificationToAddToFriends requestingUser receivingUser now =>
      rcases mem_sendNotification membership with kept | ⟨before, hbefore, _, rfl⟩
      · exact stored document kept
      · exact tracks.addRequest before _ (stored before hbefore)
  | acceptFriend receivingUser user =>
      rcases mem_acceptFriend membership with
        kept | ⟨before, hbefore, friendDocId, hdocId, _, rfl⟩
      · exact stored document kept
      · exact tracks.setFriends before receivingUser friendDocId (stored before hbefore)
          (copied receivingUser user rfl) hdocId

variable [DecidableEq ι] {s t : State ι}

/-- One sign-in has other screens. -/
theorem Tracked.setScreens (tracked : Tracked Q P s) {signIn : ι} {screens : Screens}
    (hosts : Hosts P screens) (hlookups : ∀ lookup ∈ screens.lookups, P lookup.1) :
    Tracked Q P { s with screens := Function.update s.screens signIn screens } where
  versions := tracked.versions
  screens := (Function.forall_update_iff s.screens fun _ held => Hosts P held).mpr
    ⟨hosts, fun other _ => tracked.screens other⟩
  lookups := (Function.forall_update_iff s.screens fun _ held =>
    ∀ lookup ∈ held.lookups, P lookup.1).mpr ⟨hlookups, fun other _ => tracked.lookups other⟩
  inFlight := tracked.inFlight

/-- Reading a document must give the property of copies, and a write that reaches the
collection must leave documents with theirs. -/
theorem Tracked.step_of_apply (tracked : Tracked Q P s)
    (read : ∀ document copy, Q document → decodeUser document = some copy → P copy)
    {action : Action ι} (hstep : c.step? s action = some t)
    (apply : ∀ index write documents, action = .commit index →
      s.inFlight[index]? = some write → s.versions.getLast? = some documents →
        ∀ document ∈ write.apply documents, Q document) : Tracked Q P t := by
  cases action with
  | onScreens signIn tap =>
      obtain ⟨screens, hscreens, rfl⟩ := Option.map_eq_some_iff.mp hstep
      refine tracked.setScreens ?_ ?_
      · refine hosts_step (tracked.screens signIn) ?_ hscreens
        intro documents hversion document haccount copy hdecode
        exact read document copy
          (tracked.versions documents hversion document (mem_accounts_iff.mp haccount).1) hdecode
      · intro lookup membership
        rcases lookups_step hscreens membership with earlier | ⟨_, hscreen⟩
        · exact tracked.lookups signIn lookup earlier
        · exact (tracked.screens signIn).notification lookup.1 lookup.2 hscreen
  | tapAddToFriendButton signIn now =>
      obtain ⟨screen, _, rfl⟩ := Option.map_eq_some_iff.mp hstep
      refine { tracked with inFlight := ?_ }
      intro receivingUser user membership
      rcases List.mem_append.mp membership with earlier | last
      · exact tracked.inFlight receivingUser user earlier
      · cases List.mem_singleton.mp last
  | answer signIn lookup version =>
      obtain ⟨asked, hlookup, hrest⟩ := Option.bind_eq_some_iff.mp hstep
      obtain ⟨id, _, hrest⟩ := Option.bind_eq_some_iff.mp hrest
      obtain ⟨documents, _, hrest⟩ := Option.bind_eq_some_iff.mp hrest
      obtain ⟨found, _, rfl⟩ := Option.map_eq_some_iff.mp hrest
      have after : Tracked Q P { s with
          screens := Function.update s.screens signIn { s.screens signIn with
            lookups := (s.screens signIn).lookups.eraseIdx lookup } } := by
        refine tracked.setScreens { tracked.screens signIn with } ?_
        intro other membership
        exact tracked.lookups signIn other (List.mem_of_mem_eraseIdx membership)
      refine { after with inFlight := ?_ }
      intro receivingUser user membership
      rcases List.mem_append.mp membership with earlier | issued
      · exact tracked.inFlight receivingUser user earlier
      · obtain ⟨_, _, hsame⟩ := List.mem_map.mp issued
        cases hsame
        exact tracked.lookups signIn asked (List.mem_of_getElem? hlookup)
  | commit write =>
      obtain ⟨issued, current, hissued, hcurrent, rfl⟩ := commit_cases hstep
      refine { tracked with versions := ?_, inFlight := ?_ }
      · intro documents membership
        rcases List.mem_append.mp membership with earlier | last
        · exact tracked.versions documents earlier
        · rw [List.mem_singleton.mp last]
          exact apply write issued current rfl hissued hcurrent
      · intro receivingUser user membership
        exact tracked.inFlight receivingUser user (List.mem_of_mem_eraseIdx membership)
  | fail write =>
      rw [step?] at hstep
      split at hstep
      · cases hstep
        refine { tracked with inFlight := ?_ }
        intro receivingUser user membership
        exact tracked.inFlight receivingUser user (List.mem_of_mem_eraseIdx membership)
      · cases hstep

theorem Tracked.step (tracks : c.Tracks Q P) (tracked : Tracked Q P s) {action : Action ι}
    (hstep : c.step? s action = some t) : Tracked Q P t := by
  refine tracked.step_of_apply tracks.read hstep ?_
  intro index write documents _ hissued hcurrent
  refine tracks.apply ?_ (tracked.versions documents (List.mem_of_getLast? hcurrent))
  rintro receivingUser user rfl
  exact tracked.inFlight receivingUser user (List.mem_of_getElem? hissued)

/-- The rule: what is tracked holds in every run. -/
theorem Tracks.of_run (tracks : c.Tracks Q P) {actions : List (Action ι)}
    (hrun : run? c.step? c.start actions = some s) : Tracked Q P s :=
  run?_invariant (P := Tracked Q P) (fun tracked hstep => tracked.step tracks hstep)
    (tracked_start tracks.start) hrun

end Community

end AnyCompetition.Profile.Friendship
