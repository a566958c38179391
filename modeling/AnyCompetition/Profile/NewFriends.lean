import AnyCompetition.Profile.HostCopies

/-!
# New friends have asked and are accepted

Everything that a copy of a user has was stored at the start, or was sent by somebody or
accepted by the user before.  A request is written with the id of the user who sends it,
and friends are written by an accept of a request, on a copy of one's own.
-/

namespace AnyCompetition.Profile.Friendship

open Json GuardedRun Database

variable {ι : Type} [DecidableEq ι] (c : Community ι)

namespace Community

/-! ## Two events -/

/-- A signed-in user sends a request to the user of the document. -/
def Sends (origin : Document) (request : AddFriendNotification) (_ : List (Action ι))
    (before : State ι) (action : Action ι) : Prop :=
  ∃ signIn now requestingUser receivingUser,
    action = .tapAddToFriendButton signIn now ∧
    (before.screens signIn).friend = some (requestingUser, receivingUser) ∧
    requestingUser.id = some (c.uid signIn) ∧
    receivingUser.docId = some origin.documentID ∧
    request = AddFriendNotification.withoutDocId ⟨now, requestingUser⟩

/-- The request was in the document at the start, or was sent to it. -/
def Asked (actions : List (Action ι)) (origin : Document) (request : AddFriendNotification) :
    Prop :=
  request ∈ requestsIn origin ∨ Happened c.step? c.start (c.Sends origin request) actions

/-- The user of the document accepts a request that the friend has sent before. -/
def Accepts (origin : Document) (friend : String) (front : List (Action ι))
    (before : State ι) (action : Action ι) : Prop :=
  ∃ signIn receivingUser request requester id,
    action = .onScreens signIn .tapAcceptButton ∧
    (before.screens signIn).notification = some (receivingUser, request.userFriend) ∧
    receivingUser.docId = some origin.documentID ∧
    storedId origin = some (c.uid signIn) ∧ c.Asked front origin request ∧
    request.userFriend.id = some id ∧ requester ∈ c.documents ∧
    storedId requester = some id ∧ requester.documentID = friend

/-- The friend was in the document at the start, or was accepted. -/
def Befriended (actions : List (Action ι)) (origin : Document) (friend : String) : Prop :=
  friend ∈ friendsIn origin ∨ Happened c.step? c.start (c.Accepts origin friend) actions

/-! ## The invariant -/

/-- A document of some version comes from one of the start. -/
structure Descends (actions : List (Action ι)) (origin document : Document) : Prop where
  documentID : document.documentID = origin.documentID
  storedId : storedId document = storedId origin
  requests : ∀ request ∈ requestsIn document, c.Asked actions origin request
  friends : ∀ friend ∈ friendsIn document, c.Befriended actions origin friend
  accepts : friendsIn document ≠ friendsIn origin →
    ∃ friend, Happened c.step? c.start (c.Accepts origin friend) actions

/-- A copy of the signed-in user comes from one document of the start. -/
structure IsCopy (actions : List (Action ι)) (signIn : ι) (copy : User) : Prop where
  id : copy.id = some (c.uid signIn)
  origin : ∃ origin ∈ c.documents, copy.docId = some origin.documentID ∧
    storedId origin = some (c.uid signIn) ∧
    (∀ request ∈ copy.notificationArray, c.Asked actions origin request) ∧
    ∀ friend ∈ copy.friends.getD [], c.Befriended actions origin friend

/-- An accept whose lookup has no answer yet was tapped for a request. -/
def LookedUp (actions : List (Action ι)) (lookup : User × User) : Prop :=
  ∃ origin ∈ c.documents, lookup.1.docId = some origin.documentID ∧
    (∀ friend ∈ lookup.1.friends.getD [], c.Befriended actions origin friend) ∧
    ∀ id requester, lookup.2.id = some id → requester ∈ c.documents →
      storedId requester = some id →
        Happened c.step? c.start (c.Accepts origin requester.documentID) actions

structure ScreensSound (actions : List (Action ι)) (signIn : ι) (screens : Screens) :
    Prop where
  hostUser : ∀ copy, screens.hostUser = some copy → c.IsCopy actions signIn copy
  findToAddUser : ∀ copy search, screens.findToAddUser = some (some copy, search) →
    c.IsCopy actions signIn copy
  friends : ∀ copy, screens.friends = some (some copy) → c.IsCopy actions signIn copy
  friend : ∀ copy chosen, screens.friend = some (copy, chosen) → c.IsCopy actions signIn copy
  notifications : ∀ copy, screens.notifications = some copy → c.IsCopy actions signIn copy
  notification : ∀ copy requestingUser, screens.notification = some (copy, requestingUser) →
    c.IsCopy actions signIn copy ∧
      ∃ request ∈ copy.notificationArray, request.userFriend = requestingUser
  lookups : ∀ lookup ∈ screens.lookups, c.LookedUp actions lookup

/-- What a write brings to a document has been asked or accepted. -/
def WriteSound (actions : List (Action ι)) : Write → Prop
  | .sendNotificationToAddToFriends requestingUser receivingUser now =>
      ∀ origin ∈ c.documents, receivingUser.docId = some origin.documentID →
        c.Asked actions origin (AddFriendNotification.withoutDocId ⟨now, requestingUser⟩)
  | .acceptFriend receivingUser user =>
      ∃ origin ∈ c.documents, receivingUser.docId = some origin.documentID ∧
        (∀ friend ∈ receivingUser.friends.getD [], c.Befriended actions origin friend) ∧
        ∀ friend, user.docId = some friend →
          Happened c.step? c.start (c.Accepts origin friend) actions

structure Sound (actions : List (Action ι)) (s : State ι) : Prop where
  versions : ∀ documents ∈ s.versions, ∀ document ∈ documents,
    ∃ origin ∈ c.documents, c.Descends actions origin document
  screens : ∀ signIn, c.ScreensSound actions signIn (s.screens signIn)
  inFlight : ∀ write ∈ s.inFlight, c.WriteSound actions write

variable {c} {actions : List (Action ι)} {origin document : Document}

/-! ## What has happened stays so -/

theorem Asked.append {request : AddFriendNotification} (asked : c.Asked actions origin request)
    (later : List (Action ι)) : c.Asked (actions ++ later) origin request :=
  asked.imp_right fun happened => happened.append later

theorem Befriended.append {friend : String} (befriended : c.Befriended actions origin friend)
    (later : List (Action ι)) : c.Befriended (actions ++ later) origin friend :=
  befriended.imp_right fun happened => happened.append later

theorem Descends.append (descends : c.Descends actions origin document)
    (later : List (Action ι)) : c.Descends (actions ++ later) origin document :=
  { descends with
    requests := fun request membership => (descends.requests request membership).append later
    friends := fun friend membership => (descends.friends friend membership).append later
    accepts := fun changed =>
      (descends.accepts changed).imp fun _ happened => happened.append later }

theorem IsCopy.append {signIn : ι} {copy : User} (isCopy : c.IsCopy actions signIn copy)
    (later : List (Action ι)) : c.IsCopy (actions ++ later) signIn copy := by
  obtain ⟨hid, origin, horigin, hdocId, hstored, hrequests, hfriends⟩ := isCopy
  exact ⟨hid, origin, horigin, hdocId, hstored,
    fun request membership => (hrequests request membership).append later,
    fun friend membership => (hfriends friend membership).append later⟩

theorem LookedUp.append {lookup : User × User} (lookedUp : c.LookedUp actions lookup)
    (later : List (Action ι)) : c.LookedUp (actions ++ later) lookup := by
  obtain ⟨origin, horigin, hdocId, hfriends, hrequesters⟩ := lookedUp
  exact ⟨origin, horigin, hdocId,
    fun friend membership => (hfriends friend membership).append later,
    fun id requester hid hrequester hstored =>
      (hrequesters id requester hid hrequester hstored).append later⟩

theorem ScreensSound.append {signIn : ι} {screens : Screens}
    (sound : c.ScreensSound actions signIn screens) (later : List (Action ι)) :
    c.ScreensSound (actions ++ later) signIn screens where
  hostUser copy hcopy := (sound.hostUser copy hcopy).append later
  findToAddUser copy search hcopy := (sound.findToAddUser copy search hcopy).append later
  friends copy hcopy := (sound.friends copy hcopy).append later
  friend copy chosen hcopy := (sound.friend copy chosen hcopy).append later
  notifications copy hcopy := (sound.notifications copy hcopy).append later
  notification copy requestingUser hcopy :=
    (sound.notification copy requestingUser hcopy).imp_left fun isCopy => isCopy.append later
  lookups lookup membership := (sound.lookups lookup membership).append later

theorem WriteSound.append {write : Write} (sound : c.WriteSound actions write)
    (later : List (Action ι)) : c.WriteSound (actions ++ later) write := by
  cases write with
  | sendNotificationToAddToFriends requestingUser receivingUser now =>
      exact fun origin horigin hdocId => (sound origin horigin hdocId).append later
  | acceptFriend receivingUser user =>
      obtain ⟨origin, horigin, hdocId, hfriends, huser⟩ := sound
      exact ⟨origin, horigin, hdocId,
        fun friend membership => (hfriends friend membership).append later,
        fun friend hfriend => (huser friend hfriend).append later⟩

theorem Sound.append {s : State ι} (sound : c.Sound actions s) (later : List (Action ι)) :
    c.Sound (actions ++ later) s where
  versions documents hdocuments document hdocument := by
    obtain ⟨origin, horigin, descends⟩ := sound.versions documents hdocuments document hdocument
    exact ⟨origin, horigin, descends.append later⟩
  screens signIn := (sound.screens signIn).append later
  inFlight write membership := (sound.inFlight write membership).append later

/-! ## Writes reach the collection -/

theorem Descends.addRequest (descends : c.Descends actions origin document)
    {notification : AddFriendNotification}
    (asked : c.Asked actions origin notification.withoutDocId) :
    c.Descends actions origin (addRequest notification document) where
  documentID := descends.documentID
  storedId := by
    rw [Database.storedId, lookup_addRequest_of_ne _ _ (by decide)]
    exact descends.storedId
  requests := by
    intro request membership
    rcases requestsIn_addRequest notification document with kept | added
    · rw [kept] at membership
      exact descends.requests request membership
    · rw [added] at membership
      rcases List.mem_append.mp membership with before | last
      · exact descends.requests request before
      · rw [List.mem_singleton.mp last]
        exact asked
  friends := by
    rw [friendsIn, lookup_addRequest_of_ne _ _ (by decide)]
    exact descends.friends
  accepts := by
    rw [friendsIn, lookup_addRequest_of_ne _ _ (by decide)]
    exact descends.accepts

theorem Descends.setFriends (descends : c.Descends actions origin document)
    {friends : Option (List String)}
    (befriended : ∀ friend ∈ friends.getD [], c.Befriended actions origin friend)
    (accepts : ∃ friend, Happened c.step? c.start (c.Accepts origin friend) actions) :
    c.Descends actions origin { document with
      data := setKey document.data "friends"
        (ofOption (fun friends => .array (friends.map .string)) friends) } where
  documentID := descends.documentID
  storedId := by
    rw [Database.storedId, lookup_setKey_of_ne _ _ (by decide)]
    exact descends.storedId
  requests := by
    rw [requestsIn_setFriends]
    exact descends.requests
  friends := by
    rw [friendsIn_setFriends]
    exact befriended
  accepts _ := accepts

/-- What a sound write leaves in the collection comes from the start. -/
theorem WriteSound.apply {write : Write} (sound : c.WriteSound actions write)
    {documents : List Document}
    (stored : ∀ document ∈ documents, ∃ origin ∈ c.documents, c.Descends actions origin document) :
    ∀ document ∈ write.apply documents,
      ∃ origin ∈ c.documents, c.Descends actions origin document := by
  intro document membership
  cases write with
  | sendNotificationToAddToFriends requestingUser receivingUser now =>
      rcases mem_sendNotification membership with kept | ⟨before, hbefore, hdocId, rfl⟩
      · exact stored document kept
      · obtain ⟨origin, horigin, descends⟩ := stored before hbefore
        rw [descends.documentID] at hdocId
        exact ⟨origin, horigin, descends.addRequest (sound origin horigin hdocId)⟩
  | acceptFriend receivingUser user =>
      rcases mem_acceptFriend membership with
        kept | ⟨before, hbefore, friendDocId, hdocId, hfriend, rfl⟩
      · exact stored document kept
      · obtain ⟨origin, horigin, descends⟩ := stored before hbefore
        obtain ⟨copied, hcopied, hcopiedDocId, hfriends, huser⟩ := sound
        have hsame : copied = origin := eq_of_documentID hcopied horigin <| by
          rw [hdocId, descends.documentID] at hcopiedDocId
          exact (Option.some.inj hcopiedDocId).symm
        subst hsame
        refine ⟨copied, horigin,
          descends.setFriends ?_ ⟨friendDocId, huser friendDocId hfriend⟩⟩
        intro friend hmember
        cases hold : receivingUser.friends with
        | none =>
            rw [hold] at hmember
            cases hmember
        | some friends =>
            rw [hold] at hmember hfriends
            rcases List.mem_append.mp hmember with before | last
            · exact hfriends friend before
            · rw [List.mem_singleton.mp last]
              exact Or.inr (huser friendDocId hfriend)

/-! ## Every step keeps the invariant -/

variable {s t : State ι} {signIn : ι} {screens next : Screens}

/-- An answer to `requestUserData` brings copies of the signed-in user. -/
theorem Sound.isCopy (sound : c.Sound actions s) {documents : List Document} {copy : User}
    (hversion : documents ∈ s.versions) (haccount : document ∈ accounts (c.uid signIn) documents)
    (hdecode : decodeUser document = some copy) : c.IsCopy actions signIn copy := by
  obtain ⟨hdocument, hstored⟩ := mem_accounts_iff.mp haccount
  obtain ⟨origin, horigin, descends⟩ := sound.versions documents hversion document hdocument
  refine ⟨id_of_decodes hdecode hstored, origin, horigin, ?_, ?_, ?_, ?_⟩
  · rw [decodeUser_docId hdecode, descends.documentID]
  · rw [← descends.storedId, hstored]
  · rw [← requestsIn_of_decodes hdecode]
    exact descends.requests
  · rw [← friendsIn_of_decodes hdecode]
    exact descends.friends

/-- An accept that is tapped befriends whoever has asked under the id of the request. -/
theorem ScreensSound.lookedUp (sound : c.ScreensSound actions signIn screens)
    (hrun : run? c.step? c.start actions = some s) (hscreens : s.screens signIn = screens)
    {lookup : User × User} (hscreen : screens.notification = some lookup) :
    c.LookedUp (actions ++ [.onScreens signIn .tapAcceptButton]) lookup := by
  obtain ⟨copy, requestingUser⟩ := lookup
  obtain ⟨⟨_, origin, horigin, hdocId, hstored, hrequests, hfriends⟩, request, hrequest, rfl⟩ :=
    sound.notification copy requestingUser hscreen
  refine ⟨origin, horigin, hdocId,
    fun friend membership => (hfriends friend membership).append _, ?_⟩
  intro id requester hid hrequester hrequesterStored
  refine Happened.last hrun ⟨signIn, copy, request, requester, id, rfl, ?_, hdocId, hstored,
    hrequests request hrequest, hid, hrequester, hrequesterStored, rfl⟩
  rw [hscreens, hscreen]

theorem ScreensSound.hosts (sound : c.ScreensSound actions signIn screens) :
    Hosts (c.IsCopy actions signIn) screens :=
  { sound with
    notification := fun copy requestingUser opened =>
      (sound.notification copy requestingUser opened).1 }

/-- What happens on the screens of one sign-in keeps them sound. -/
theorem ScreensSound.step (sound : c.Sound actions s)
    (hrun : run? c.step? c.start actions = some s) {tap : Tap}
    (hstep : (s.screens signIn).step? c signIn s.versions tap = some next) :
    c.ScreensSound (actions ++ [.onScreens signIn tap]) signIn next := by
  have before := sound.screens signIn
  have after := before.append [.onScreens signIn tap]
  have hosts : Hosts (c.IsCopy (actions ++ [.onScreens signIn tap]) signIn) next := by
    refine hosts_step after.hosts ?_ hstep
    intro documents hversion document haccount copy hdecode
    exact (sound.isCopy hversion haccount hdecode).append _
  refine { hosts with notification := ?_, lookups := ?_ }
  · intro copy requestingUser opened
    refine ⟨hosts.notification copy requestingUser opened, ?_⟩
    rcases notification_step hstep opened with earlier | among
    · exact (after.notification copy requestingUser earlier).2
    · exact among
  · intro lookup membership
    rcases lookups_step hstep membership with earlier | ⟨rfl, hscreen⟩
    · exact after.lookups lookup earlier
    · exact before.lookedUp hrun rfl hscreen

/-- The users found by the lookup of an accept are befriended by the write. -/
theorem Sound.acceptFriend (sound : c.Sound actions s) {documents : List Document}
    (hversion : documents ∈ s.versions) {lookup : User × User}
    (lookedUp : c.LookedUp actions lookup) {id : String} (hid : lookup.2.id = some id)
    (haccount : document ∈ accounts id documents) {user : User}
    (hdecode : decodeUser document = some user) :
    c.WriteSound actions (.acceptFriend lookup.1 user) := by
  obtain ⟨origin, horigin, hdocId, hfriends, hrequesters⟩ := lookedUp
  obtain ⟨hdocument, hstored⟩ := mem_accounts_iff.mp haccount
  obtain ⟨requester, hrequester, descends⟩ := sound.versions documents hversion document hdocument
  refine ⟨origin, horigin, hdocId, hfriends, ?_⟩
  intro friend hfriend
  rw [decodeUser_docId hdecode, Option.some.injEq] at hfriend
  rw [← hfriend, descends.documentID]
  exact hrequesters id requester hid hrequester (by rw [← descends.storedId, hstored])

/-- One sign-in has other screens. -/
theorem Sound.setScreens (sound : c.Sound actions s)
    (hscreens : c.ScreensSound actions signIn screens) :
    ∀ other, c.ScreensSound actions other (Function.update s.screens signIn screens other) := by
  intro other
  by_cases hsame : other = signIn
  · subst hsame
    rw [Function.update_self]
    exact hscreens
  · rw [Function.update_of_ne hsame]
    exact sound.screens other

theorem Sound.step (sound : c.Sound actions s) (hrun : run? c.step? c.start actions = some s)
    {action : Action ι} (hstep : c.step? s action = some t) :
    c.Sound (actions ++ [action]) t := by
  have after := sound.append [action]
  cases action with
  | onScreens signIn tap =>
      obtain ⟨screens, hscreens, rfl⟩ := Option.map_eq_some_iff.mp hstep
      exact { after with screens := after.setScreens (.step sound hrun hscreens) }
  | tapAddToFriendButton signIn now =>
      obtain ⟨⟨copy, chosen⟩, hfriend, rfl⟩ := Option.map_eq_some_iff.mp hstep
      refine { after with inFlight := ?_ }
      intro write membership
      rcases List.mem_append.mp membership with earlier | last
      · exact after.inFlight write earlier
      · rw [List.mem_singleton.mp last]
        intro origin _ hdocId
        have isCopy := (sound.screens signIn).friend copy chosen hfriend
        exact Or.inr (Happened.last hrun
          ⟨signIn, now, copy, chosen, rfl, hfriend, isCopy.id, hdocId, rfl⟩)
  | answer signIn lookup version =>
      obtain ⟨asked, hlookup, hrest⟩ := Option.bind_eq_some_iff.mp hstep
      obtain ⟨id, hid, hrest⟩ := Option.bind_eq_some_iff.mp hrest
      obtain ⟨documents, hversion, hrest⟩ := Option.bind_eq_some_iff.mp hrest
      obtain ⟨found, hfound, rfl⟩ := Option.map_eq_some_iff.mp hrest
      have hscreens := after.screens signIn
      refine { after with screens := after.setScreens { hscreens with lookups := ?_ },
                          inFlight := ?_ }
      · intro other membership
        exact hscreens.lookups other (List.mem_of_mem_eraseIdx membership)
      · intro write membership
        rcases List.mem_append.mp membership with earlier | issued
        · exact after.inFlight write earlier
        · obtain ⟨user, huser, rfl⟩ := List.mem_map.mp issued
          obtain ⟨document, haccount, hdecode⟩ := mem_of_toOption hfound huser
          exact after.acceptFriend (List.mem_of_getElem? hversion)
            (hscreens.lookups asked (List.mem_of_getElem? hlookup)) hid haccount hdecode
  | commit write =>
      obtain ⟨issued, hissued, hrest⟩ := Option.bind_eq_some_iff.mp hstep
      obtain ⟨current, hcurrent, rfl⟩ := Option.map_eq_some_iff.mp hrest
      refine { after with versions := ?_, inFlight := ?_ }
      · intro documents membership
        rcases List.mem_append.mp membership with earlier | last
        · exact after.versions documents earlier
        · rw [List.mem_singleton.mp last]
          exact (after.inFlight issued (List.mem_of_getElem? hissued)).apply
            (after.versions current (List.mem_of_getLast? hcurrent))
      · intro other membership
        exact after.inFlight other (List.mem_of_mem_eraseIdx membership)
  | fail write =>
      rw [step?] at hstep
      split at hstep
      · cases hstep
        refine { after with inFlight := ?_ }
        intro other membership
        exact after.inFlight other (List.mem_of_mem_eraseIdx membership)
      · cases hstep

variable (c) in
theorem sound_start : c.Sound [] c.start where
  versions documents hdocuments document hdocument := by
    rw [List.mem_singleton.mp hdocuments] at hdocument
    exact ⟨document, hdocument, rfl, rfl, fun _ => Or.inl, fun _ => Or.inl,
      fun changed => absurd rfl changed⟩
  screens _ := ⟨nofun, nofun, nofun, nofun, nofun, nofun, nofun⟩
  inFlight _ := nofun

theorem sound_of_run (hrun : run? c.step? c.start actions = some s) : c.Sound actions s :=
  run?_history_invariant (sound_start c)
    (fun hfront sound hstep => sound.step hfront hstep) hrun

/-- Nobody has asked or has friends at the start. -/
theorem twoUsers_start {origin : Document} (horigin : origin ∈ twoUsers.documents) :
    requestsIn origin = [] ∧ friendsIn origin = [] := by
  rcases List.mem_pair.mp horigin with rfl | rfl
  · exact ⟨rfl, rfl⟩
  · exact ⟨rfl, rfl⟩

/--
However the answers are delayed and the writes are reordered or lost: every request in a
document was there at the start, or somebody has sent it to this user under the id that
the request has.
-/
theorem requests_are_sent (hrun : run? c.step? c.start actions = some s)
    {documents : List Document} (hversion : documents ∈ s.versions)
    (hdocument : document ∈ documents) :
    ∃ origin ∈ c.documents, document.documentID = origin.documentID ∧
      ∀ request ∈ requestsIn document, request ∉ requestsIn origin →
        Happened c.step? c.start (c.Sends origin request) actions := by
  obtain ⟨origin, horigin, descends⟩ :=
    (sound_of_run hrun).versions documents hversion document hdocument
  refine ⟨origin, horigin, descends.documentID, fun request membership new => ?_⟩
  exact (descends.requests request membership).resolve_left new

theorem requests_are_sent_two_users :
    ∃ (final : State Bool) (documents : List Document) (document : Document)
      (request : AddFriendNotification),
      run? twoUsers.step? twoUsers.start asks = some final ∧ documents ∈ final.versions ∧
      document ∈ documents ∧ requestsIn document = [request] ∧
      ∃ origin ∈ twoUsers.documents, document.documentID = origin.documentID ∧
        Happened twoUsers.step? twoUsers.start (twoUsers.Sends origin request) asks := by
  have hcheck : ((run? twoUsers.step? twoUsers.start asks).bind fun final =>
      final.versions[1]?.bind fun documents => documents[1]?.map fun document =>
        (final, documents, document)).any
      (fun found => (requestsIn found.2.2).length = 1) = true := by
    decide +kernel
  obtain ⟨⟨final, documents, document⟩, hfound, hfacts⟩ := (Option.any_eq_true _ _).mp hcheck
  have hlength := of_decide_eq_true hfacts
  obtain ⟨_, hrun, hrest⟩ := Option.bind_eq_some_iff.mp hfound
  obtain ⟨_, hversion, hrest⟩ := Option.bind_eq_some_iff.mp hrest
  obtain ⟨_, hdocument, hsame⟩ := Option.map_eq_some_iff.mp hrest
  cases hsame
  obtain ⟨request, hrequest⟩ := List.length_eq_one_iff.mp hlength
  have hmember := List.mem_of_getElem? hversion
  have hstored := List.mem_of_getElem? hdocument
  obtain ⟨origin, horigin, hsame, hsent⟩ := requests_are_sent hrun hmember hstored
  refine ⟨final, documents, document, request, hrun, hmember, hstored, hrequest, origin,
    horigin, hsame, hsent request ?_ ?_⟩
  · rw [hrequest]
    exact List.mem_cons_self
  · rw [(twoUsers_start horigin).1]
    exact List.not_mem_nil

/--
However the answers are delayed and the writes are reordered or lost: the friends in a
document change only when its user accepts a request, and every new friend is one whose
request to this user the user has accepted.
-/
theorem new_friends_are_accepted (hrun : run? c.step? c.start actions = some s)
    {documents : List Document} (hversion : documents ∈ s.versions)
    (hdocument : document ∈ documents) :
    ∃ origin ∈ c.documents, document.documentID = origin.documentID ∧
      (friendsIn document ≠ friendsIn origin →
        ∃ friend, Happened c.step? c.start (c.Accepts origin friend) actions) ∧
      ∀ friend ∈ friendsIn document, friend ∉ friendsIn origin →
        Happened c.step? c.start (c.Accepts origin friend) actions := by
  obtain ⟨origin, horigin, descends⟩ :=
    (sound_of_run hrun).versions documents hversion document hdocument
  refine ⟨origin, horigin, descends.documentID, descends.accepts, ?_⟩
  exact fun friend membership new => (descends.friends friend membership).resolve_left new

theorem new_friends_are_accepted_two_users :
    ∃ (final : State Bool) (documents : List Document) (document : Document),
      run? twoUsers.step? twoUsers.start (asks ++ accepts) = some final ∧
      documents ∈ final.versions ∧ document ∈ documents ∧ friendsIn document = ["d1"] ∧
      ∃ origin ∈ twoUsers.documents, document.documentID = origin.documentID ∧
        Happened twoUsers.step? twoUsers.start (twoUsers.Accepts origin "d1")
          (asks ++ accepts) := by
  have hcheck : ((run? twoUsers.step? twoUsers.start (asks ++ accepts)).bind fun final =>
      final.versions[2]?.bind fun documents => documents[1]?.map fun document =>
        (final, documents, document)).any
      (fun found => friendsIn found.2.2 = ["d1"]) = true := by
    decide +kernel
  obtain ⟨⟨final, documents, document⟩, hfound, hfacts⟩ := (Option.any_eq_true _ _).mp hcheck
  have hfriends := of_decide_eq_true hfacts
  obtain ⟨_, hrun, hrest⟩ := Option.bind_eq_some_iff.mp hfound
  obtain ⟨_, hversion, hrest⟩ := Option.bind_eq_some_iff.mp hrest
  obtain ⟨_, hdocument, hsame⟩ := Option.map_eq_some_iff.mp hrest
  cases hsame
  have hmember := List.mem_of_getElem? hversion
  have hstored := List.mem_of_getElem? hdocument
  obtain ⟨origin, horigin, hsame, _, haccepted⟩ := new_friends_are_accepted hrun hmember hstored
  refine ⟨final, documents, document, hrun, hmember, hstored, hfriends, origin, horigin, hsame,
    haccepted "d1" ?_ ?_⟩
  · rw [hfriends]
    exact List.mem_cons_self
  · rw [(twoUsers_start horigin).2]
    exact List.not_mem_nil

end Community

end AnyCompetition.Profile.Friendship
