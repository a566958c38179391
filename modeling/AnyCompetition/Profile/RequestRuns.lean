import AnyCompetition.Profile.AcceptedRequest
import AnyCompetition.Profile.RequestNesting

/-!
# Runs of requests happen in the community

When every device loads its profile from the current version, opens a user that it has
found and has its request written at once, the community does what the requests alone do.
-/

namespace AnyCompetition.Profile.Friendship

open Json GuardedRun Database

namespace Community

/-- What a request is made of: the host user, and the document of the chosen user. -/
def asksFor (screen : User × User) : User × Option String :=
  (screen.1, screen.2.docId)

/-- The community stores what the requests do, with the same copies on the screens. -/
structure Mirrors (r : Requests) (s : State String) : Prop where
  versions : s.versions.getLast? = some r.users
  length : s.versions.length = r.sent + 1
  inFlight : s.inFlight = []
  hostUser : ∀ uid, (s.screens uid).hostUser = r.hostUser uid
  friend : ∀ uid, (s.screens uid).friend.map asksFor = (r.friend uid).map asksFor

/-- The user of the document can be found by a text. -/
def Findable {ι : Type} (c : Community ι) (docId : String) : Prop :=
  ∃ document ∈ c.documents, document.documentID = docId ∧
    ∃ user query, decodeUser document = some user ∧ query ≠ "" ∧
      user ∈ UserSearch.found c.hasPrefix [user] query

/-- Only users who can be found are chosen. -/
def ChoosesFindable {ι : Type} (c : Community ι) (actions : List Requests.Action) : Prop :=
  ∀ uid choosedUser docId, .openFriendViewController uid choosedUser ∈ actions →
    choosedUser.docId = some docId → c.Findable docId

/-- A user keeps its names. -/
theorem names_of_keeps {first second : Document} (keeps : Keeps first second) {before after : User}
    (hbefore : decodeUser first = some before) (hafter : decodeUser second = some after) :
    after.nick = before.nick ∧ after.firstName = before.firstName ∧
      after.lastName = before.lastName := by
  have hfirst := readFrom_of_decodes hbefore
  have hsecond := readFrom_of_decodes hafter
  have hsame : ∀ key, key ≠ "docId" → key ≠ "friends" → key ≠ "notificationArray" →
      required (setKey second.data "docId" (.string second.documentID)) key string? =
        required (setKey first.data "docId" (.string first.documentID)) key string? := by
    intro key hdocId hfriends hrequests
    rw [required, required, lookup_setKey_of_ne _ _ hdocId, lookup_setKey_of_ne _ _ hdocId,
      keeps.lookup key hfriends hrequests]
  have nick := hsame "nick" (by decide) (by decide) (by decide)
  have firstName := hsame "firstName" (by decide) (by decide) (by decide)
  have lastName := hsame "lastName" (by decide) (by decide) (by decide)
  rw [hfirst.nick, hsecond.nick] at nick
  rw [hfirst.firstName, hsecond.firstName] at firstName
  rw [hfirst.lastName, hsecond.lastName] at lastName
  exact ⟨Option.some.inj nick, Option.some.inj firstName, Option.some.inj lastName⟩

/-- A user that could be found at the start is found in every later version. -/
theorem Findable.exists_found {ι : Type} {c : Community ι} {docId : String}
    (findable : c.Findable docId) {documents : List Document}
    (kept : List.Forall₂ Keeps c.documents documents) :
    ∃ (query : String) (index : Nat) (user : User), query ≠ "" ∧
      (UserSearch.found c.hasPrefix (Database.getAllUsers documents) query)[index]? = some user ∧
      user.docId = some docId := by
  obtain ⟨origin, horigin, rfl, before, query, hbefore, hquery, hfound⟩ := findable
  obtain ⟨document, hdocument, keeps⟩ :=
    forall₂_exists_right (R := fun later first => Keeps first later) kept.flip horigin
  obtain ⟨user, hdecode⟩ := Option.isSome_iff_exists.mp
    (keeps.decodes (Option.isSome_iff_exists.mpr ⟨before, hbefore⟩))
  obtain ⟨hnick, hfirstName, hlastName⟩ := names_of_keeps keeps hbefore hdecode
  have hlisted : user ∈ UserSearch.found c.hasPrefix (Database.getAllUsers documents) query := by
    rw [UserSearch.mem_found_iff, hnick, hfirstName, hlastName]
    refine ⟨?_, (UserSearch.mem_found_iff.mp hfound).2⟩
    rw [Database.getAllUsers, appendDecoded_eq]
    exact List.mem_filterMap.mpr ⟨document, hdocument, hdecode⟩
  obtain ⟨index, hindex⟩ := List.getElem?_of_mem hlisted
  exact ⟨query, index, user, hquery, hindex, by
    rw [decodeUser_docId hdecode, keeps.documentID]⟩

/-! ## Taps -/

variable {c : Community String} {uid : String}

/-- The search of a new screen finds the users it has been given. -/
theorem exists_search (hasPrefix : String → String → Bool) (users : List User) {query : String}
    (hquery : query ≠ "") :
    ∃ search, ((UserSearch.viewDidLoad .findToAddUserViewController).addObserverToUser
        users).step? hasPrefix .findToAddUserViewController (.text query) = some search ∧
      search.searchTable.foundUsers = UserSearch.found hasPrefix users query := by
  refine ⟨_, rfl, ?_⟩
  have hobserved := (UserSearch.observe_eq hasPrefix .findToAddUserViewController
    ((UserSearch.viewDidLoad .findToAddUserViewController).addObserverToUser users) query).2
  rw [UserSearch.matching_of_ne_empty _ _ hquery] at hobserved
  exact hobserved

/-- The users are searched for a text, and one of those found is tapped. -/
theorem taps_choose {screens : Screens} {versions : List (List Document)} {version index : Nat}
    {documents : List Document} (hversion : versions[version]? = some documents)
    {hostUser user : User} (hhost : screens.hostUser = some hostUser) {query : String}
    (hquery : query ≠ "")
    (hfound : (UserSearch.found c.hasPrefix (Database.getAllUsers documents) query)[index]? =
      some user) :
    ∃ next, [Tap.tapAddFriendButton, .getAllUsers version, .text query,
        .didSelectRowAt index].foldlM (fun screens tap => screens.step? c uid versions tap)
          screens = some next ∧
      next.hostUser = some hostUser ∧ next.friend = some (hostUser, user) := by
  obtain ⟨search, hsearch, htable⟩ :=
    exists_search c.hasPrefix (Database.getAllUsers documents) hquery
  refine ⟨{ screens with
    findToAddUser := some (some hostUser, search)
    friend := some (hostUser, user) }, ?_, hhost, rfl⟩
  simp only [List.foldlM_cons, List.foldlM_nil, Screens.step?, Option.bind_eq_bind,
    Option.bind_some, hversion, Option.map_some, hhost, hsearch, htable, hfound]
  rfl

/-- Only the document id of the chosen user matters for a request. -/
theorem sendNotification_congr {first second : User} (same : first.docId = second.docId)
    (requestingUser : User) (now : String) (documents : List Document) :
    sendNotificationToAddToFriends requestingUser first now documents =
      sendNotificationToAddToFriends requestingUser second now documents := by
  rw [sendNotificationToAddToFriends, sendNotificationToAddToFriends, same]

/-! ## The simulation -/

variable {r next : Requests} {s : State String}

/-- Taps of one sign-in bring its screens to where the requests have theirs. -/
theorem Mirrors.tapped (mirrors : Mirrors r s) {screens : Screens}
    (users : next.users = r.users) (sent : next.sent = r.sent)
    (hostUser : screens.hostUser = next.hostUser uid)
    (friend : screens.friend.map asksFor = (next.friend uid).map asksFor)
    (others : ∀ other, other ≠ uid →
      next.hostUser other = r.hostUser other ∧ next.friend other = r.friend other) :
    Mirrors next (withScreens s uid screens) where
  versions := by
    rw [users]
    exact mirrors.versions
  length := by
    rw [sent]
    exact mirrors.length
  inFlight := mirrors.inFlight
  hostUser other := by
    by_cases hsame : other = uid
    · rw [hsame, screens_withScreens, hostUser]
    · rw [screens_withScreens_of_ne hsame, mirrors.hostUser, (others other hsame).1]
  friend other := by
    by_cases hsame : other = uid
    · rw [hsame, screens_withScreens, friend]
    · rw [screens_withScreens_of_ne hsame, mirrors.friend, (others other hsame).2]

theorem Mirrors.requestUserData (own : ∀ uid, c.uid uid = uid) (mirrors : Mirrors r s)
    (hstep : r.step? (.requestUserData uid) = some next) :
    ∃ more t, run? c.step? s more = some t ∧ Mirrors next t := by
  obtain ⟨received, hfound, rfl⟩ := Requests.requestUserData_cases hstep
  have htap : [Tap.requestUserData (s.versions.length - 1)].foldlM
      (fun screens tap => screens.step? c uid s.versions tap) (s.screens uid) =
        some { s.screens uid with
          hostUser := received.foldl (fun _ user => some user) (s.screens uid).hostUser } := by
    have hversion := mirrors.versions
    rw [List.getLast?_eq_getElem?] at hversion
    simp only [List.foldlM_cons, List.foldlM_nil, Screens.step?, Option.bind_eq_bind, hversion,
      Option.bind_some, own, hfound]
    rfl
  refine ⟨_, _, run?_own_taps htap, mirrors.tapped rfl rfl ?_ (mirrors.friend uid) ?_⟩
  · dsimp only
    rw [Function.update_self, mirrors.hostUser]
  · exact fun other hother => ⟨Function.update_of_ne hother _ _, rfl⟩

theorem Mirrors.openFriendViewController {past : List (Action String)}
    (hrun : run? c.step? c.start past = some s) (mirrors : Mirrors r s) {choosedUser : User}
    (choose : ∀ docId, choosedUser.docId = some docId → c.Findable docId)
    (hstep : r.step? (.openFriendViewController uid choosedUser) = some next) :
    ∃ more t, run? c.step? s more = some t ∧ Mirrors next t := by
  obtain ⟨hostUser, hhost, rfl⟩ := Option.map_eq_some_iff.mp hstep
  have hscreen : (s.screens uid).hostUser = some hostUser := (mirrors.hostUser uid).trans hhost
  -- the taps that open a user with the same document
  obtain ⟨taps, screens, htaps, hkept, hfriend⟩ : ∃ (taps : List Tap) (screens : Screens),
      taps.foldlM (fun screens tap => screens.step? c uid s.versions tap) (s.screens uid) =
        some screens ∧
      screens.hostUser = some hostUser ∧
      screens.friend.map asksFor = some (hostUser, choosedUser.docId) := by
    cases hdocId : choosedUser.docId with
    | none =>
        refine ⟨[.tapToCell], _, rfl, ?_, ?_⟩
        · rw [hscreen]
          exact hscreen
        · rw [hscreen]
          rfl
    | some docId =>
        have hversion := mirrors.versions
        rw [List.getLast?_eq_getElem?] at hversion
        obtain ⟨query, index, user, hquery, hfound, huser⟩ :=
          (choose docId hdocId).exists_found
            (keeps_start hrun r.users (List.mem_of_getLast? mirrors.versions))
        obtain ⟨screens, htaps, hkept, hfriend⟩ :=
          taps_choose hversion hscreen hquery hfound
        exact ⟨_, screens, htaps, hkept, by rw [hfriend, Option.map_some, asksFor, huser]⟩
  refine ⟨_, _, run?_own_taps htaps, mirrors.tapped rfl rfl ?_ ?_ ?_⟩
  · rw [hkept, hhost]
  · dsimp only
    rw [hfriend, Function.update_self]
    rfl
  · exact fun other hother => ⟨rfl, Function.update_of_ne hother _ _⟩

theorem Mirrors.tapAddToFriendButton (mirrors : Mirrors r s) {now : String}
    (hstep : r.step? (.tapAddToFriendButton uid now) = some next) :
    ∃ more t, run? c.step? s more = some t ∧ Mirrors next t := by
  obtain ⟨⟨requestingUser, receivingUser⟩, hfriend, rfl⟩ := Option.map_eq_some_iff.mp hstep
  obtain ⟨chosen, hscreen, hdocId⟩ : ∃ chosen,
      (s.screens uid).friend = some (requestingUser, chosen) ∧
      chosen.docId = receivingUser.docId := by
    have hasks := mirrors.friend uid
    rw [hfriend, Option.map_some] at hasks
    obtain ⟨⟨asker, chosen⟩, hscreen, hsame⟩ := Option.map_eq_some_iff.mp hasks
    simp only [asksFor, Prod.mk.injEq] at hsame
    obtain ⟨rfl, hdocId⟩ := hsame
    exact ⟨chosen, hscreen, hdocId⟩
  let sent : State String := { s with
    inFlight := [.sendNotificationToAddToFriends requestingUser chosen now] }
  have hsend : c.step? s (.tapAddToFriendButton uid now) = some sent := by
    rw [step?, hscreen, Option.map_some, mirrors.inFlight]
    rfl
  have hcommit : c.step? sent (.commit 0) = some { s with
      versions := s.versions ++
        [sendNotificationToAddToFriends requestingUser chosen now r.users]
      inFlight := [] } := by
    change s.versions.getLast?.map _ = _
    rw [mirrors.versions]
    rfl
  refine ⟨[.tapAddToFriendButton uid now, .commit 0], _, run?_cons_eq_some_iff.mpr
    ⟨sent, hsend, (run?_singleton _ _).trans hcommit⟩, ?_, ?_, rfl, mirrors.hostUser,
    mirrors.friend⟩
  · rw [List.getLast?_concat, sendNotification_congr hdocId]
  · rw [List.length_append, mirrors.length]
    rfl

theorem Mirrors.step (own : ∀ uid, c.uid uid = uid) {past : List (Action String)}
    (hrun : run? c.step? c.start past = some s) (mirrors : Mirrors r s)
    {tap : Requests.Action} (hstep : r.step? tap = some next)
    (choose : c.ChoosesFindable [tap]) :
    ∃ more t, run? c.step? s more = some t ∧ Mirrors next t := by
  cases tap with
  | requestUserData uid => exact mirrors.requestUserData own hstep
  | openFriendViewController uid choosedUser =>
      exact mirrors.openFriendViewController hrun
        (fun docId => choose uid choosedUser docId List.mem_cons_self) hstep
  | tapAddToFriendButton uid now => exact mirrors.tapAddToFriendButton hstep

/--
Whatever the devices do with requests alone, they can do in the community: when every
sign-in is named by its uid and no user is opened that a search cannot find, for every run
of the requests there is one of the community that stores the same users, in one version
more than requests were sent, and has the same copies on the screens.
-/
theorem requests_happen (own : ∀ uid, c.uid uid = uid) {taps : List Requests.Action}
    (choose : c.ChoosesFindable taps)
    (hrun : run? Requests.step? { users := c.documents } taps = some r) :
    ∃ actions s, run? c.step? c.start actions = some s ∧ Mirrors r s := by
  have hstart : Mirrors { users := c.documents } c.start :=
    ⟨rfl, rfl, rfl, fun _ => rfl, fun _ => rfl⟩
  refine @run?_prefix_invariant _ _ _ _
    (fun _ r => ∃ actions s, run? c.step? c.start actions = some s ∧ Mirrors r s)
    ⟨[], _, rfl, hstart⟩ taps ?_ _ hrun
  rintro front rest r next tap htaps _ ⟨past, s, hpast, mirrors⟩ hstep
  have hchoose : c.ChoosesFindable [tap] := by
    intro uid choosedUser docId membership
    refine choose uid choosedUser docId ?_
    rw [htaps, List.mem_singleton.mp membership]
    exact List.mem_append_right _ List.mem_cons_self
  obtain ⟨more, t, hmore, mirrored⟩ := mirrors.step own hpast hstep hchoose
  exact ⟨past ++ more, t, run?_trans hpast hmore, mirrored⟩

/-! ## Two users who ask each other -/

/-- The registered users, each sign-in named by its uid. -/
def registeredUsers : Community String where
  uid := id
  documents := Requests.registered.users
  distinct := by decide
  hasPrefix := UserSearch.startsWith

theorem findable_registeredUsers (who : Bool) :
    registeredUsers.Findable (Requests.documentId who) := by
  cases who with
  | false =>
      exact ⟨_, List.mem_cons_self, rfl, _, "an", decodeUser_addUser .anna "d1", by decide,
        UserSearch.mem_found_iff.mpr ⟨List.mem_cons_self, by decide +kernel⟩⟩
  | true =>
      exact ⟨_, List.mem_cons_of_mem _ List.mem_cons_self, rfl, _, "bo",
        decodeUser_addUser .boris "d2", by decide,
        UserSearch.mem_found_iff.mpr ⟨List.mem_cons_self, by decide +kernel⟩⟩

theorem choosesFindable_ask (who : Bool) : registeredUsers.ChoosesFindable (Requests.ask who) := by
  intro uid choosedUser docId opens hdocId
  simp only [Requests.ask, List.mem_cons, Requests.Action.openFriendViewController.injEq,
    reduceCtorEq, List.not_mem_nil, false_or, or_false] at opens
  obtain ⟨-, rfl⟩ := opens
  cases hdocId
  exact findable_registeredUsers !who

/-- Users who do nothing but ask each other. -/
theorem choosesFindable_asks {taps : List Requests.Action}
    (asks : ∀ tap ∈ taps, ∃ who, tap ∈ Requests.ask who) :
    registeredUsers.ChoosesFindable taps := by
  intro uid choosedUser docId opens hdocId
  obtain ⟨who, hask⟩ := asks _ opens
  exact choosesFindable_ask who uid choosedUser docId hask hdocId

/--
Also in the community users who keep asking each other are nested deeper than any bound, in
the version that is stored last.
-/
theorem nested_beyond_every_bound (bound : Nat) :
    ∃ actions s documents, run? registeredUsers.step? registeredUsers.start actions = some s ∧
      s.versions.getLast? = some documents ∧
      ∃ document ∈ documents, ∃ user, decodeUser document = some user ∧ bound < user.nesting := by
  obtain ⟨taps, r, who, people, data, asks, hrun, _, hstored, hgrowing⟩ :=
    Requests.exists_run_growing (bound + 1)
  obtain ⟨document, hdocument, deep⟩ := Requests.exists_document_of_growing hstored hgrowing
  obtain ⟨actions, s, hactions, mirrors⟩ :=
    requests_happen (fun _ => rfl) (choosesFindable_asks asks) hrun
  exact ⟨actions, s, r.users, hactions, mirrors.versions, document, hdocument, deep⟩

end Community

end AnyCompetition.Profile.Friendship
