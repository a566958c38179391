import AnyCompetition.Profile.SentRequests

/-!
# Nested requests

The map of a user who asks carries the requests that user has received, so a stored user
is nested one level deeper than the copy that was sent.  A user is never nested
deeper than the number of requests sent, and two users who keep asking each other
reach every depth.
-/

namespace AnyCompetition

/-! ## Nesting of a user -/

mutual

/-- The levels user, request, requesting user, request and so on below a user. -/
def User.nesting : User → Nat
  | { notificationArray := notifications, .. } => AddFriendNotification.nestingAll notifications
termination_by structural user => user

def AddFriendNotification.nesting : AddFriendNotification → Nat
  | ⟨_, userFriend⟩ => userFriend.nesting + 1
termination_by structural notification => notification

def AddFriendNotification.nestingAll : List AddFriendNotification → Nat
  | [] => 0
  | notification :: rest => max notification.nesting (AddFriendNotification.nestingAll rest)
termination_by structural notifications => notifications

end

theorem User.nesting_eq (user : User) :
    user.nesting = AddFriendNotification.nestingAll user.notificationArray := by
  cases user
  rfl

theorem AddFriendNotification.nesting_eq (notification : AddFriendNotification) :
    notification.nesting = notification.userFriend.nesting + 1 := by
  cases notification
  rfl

/-- The last request counts as much as the others. -/
theorem AddFriendNotification.nestingAll_concat (notifications : List AddFriendNotification)
    (last : AddFriendNotification) :
    nestingAll (notifications ++ [last]) = max (nestingAll notifications) last.nesting := by
  induction notifications with
  | nil => exact Nat.max_comm _ _
  | cons notification rest ih =>
      rw [List.cons_append, nestingAll, nestingAll, ih, Nat.max_assoc]

mutual

@[simp]
theorem User.nesting_withoutDocId (user : User) : user.withoutDocId.nesting = user.nesting := by
  cases user with
  | mk firstName lastName nick docId id mail friends playedGames wonGames lostGames
      wonCups notifications =>
      have inner := AddFriendNotification.nestingAll_withoutDocIds notifications
      simp only [User.withoutDocId, User.nesting, inner]
termination_by structural user

theorem AddFriendNotification.nesting_withoutDocId (notification : AddFriendNotification) :
    notification.withoutDocId.nesting = notification.nesting := by
  cases notification with
  | mk date userFriend =>
      have inner := User.nesting_withoutDocId userFriend
      simp only [AddFriendNotification.withoutDocId, AddFriendNotification.nesting, inner]
termination_by structural notification

theorem AddFriendNotification.nestingAll_withoutDocIds
    (notifications : List AddFriendNotification) :
    AddFriendNotification.nestingAll (AddFriendNotification.withoutDocIds notifications) =
      AddFriendNotification.nestingAll notifications := by
  cases notifications with
  | nil => rfl
  | cons notification rest =>
      have first := AddFriendNotification.nesting_withoutDocId notification
      have later := AddFriendNotification.nestingAll_withoutDocIds rest
      simp only [AddFriendNotification.withoutDocIds, AddFriendNotification.nestingAll, first,
        later]
termination_by structural notifications

end

/-- One more request: its user is nested one level deeper inside the receiver. -/
theorem User.nesting_concat (user : User) (notification : AddFriendNotification) :
    User.nesting { user with notificationArray := user.notificationArray ++ [notification] } =
      max user.nesting (notification.userFriend.nesting + 1) := by
  rw [User.nesting_eq, User.nesting_eq user, AddFriendNotification.nestingAll_concat,
    AddFriendNotification.nesting_eq]

namespace Profile.Requests

open Json Trap GuardedRun Database

/-! ## The bound of a run -/

/-- The stored documents are users without requests. -/
def WithoutRequests (users : List Document) : Prop :=
  ∀ document ∈ users, ∃ user, decodeUser document = some user ∧ user.notificationArray = []

/-- Every stored user is nested at most so deep. -/
def NestedWithin (bound : Nat) (s : Requests) : Prop :=
  ∀ document ∈ s.users, ∃ user, decodeUser document = some user ∧ user.nesting ≤ bound

/-- No copy of a user, stored or held by a device, is nested deeper than requests were sent. -/
structure NestedBySent (s : Requests) : Prop where
  users : NestedWithin s.sent s
  hostUser : ∀ uid user, s.hostUser uid = some user → user.nesting ≤ s.sent
  friend : ∀ uid screen, s.friend uid = some screen → screen.1.nesting ≤ s.sent

variable {s t : Requests}

theorem nestedBySent_requestUserData (bounded : NestedBySent s) {uid : String}
    (hstep : s.step? (.requestUserData uid) = some t) : NestedBySent t := by
  obtain ⟨received, hfound, rfl⟩ := requestUserData_cases hstep
  refine ⟨bounded.users, ?_, bounded.friend⟩
  apply (Function.forall_update_iff s.hostUser
    fun _ copy => ∀ user, copy = some user → user.nesting ≤ s.sent).mpr
  refine ⟨?_, fun other _ => bounded.hostUser other⟩
  intro user hcopy
  rcases mem_of_foldl_some hcopy with hold | membership
  · exact bounded.hostUser uid user hold
  · obtain ⟨document, hdocument, hdecode⟩ := exists_document_of_getUserData hfound membership
    obtain ⟨stored, hstored, hbound⟩ := bounded.users document hdocument
    rw [hdecode] at hstored
    cases hstored
    exact hbound

theorem nestedBySent_openFriendViewController (bounded : NestedBySent s) {uid : String}
    {choosedUser : User} (hstep : s.step? (.openFriendViewController uid choosedUser) = some t) :
    NestedBySent t := by
  obtain ⟨hostUser, hhost, rfl⟩ := Option.map_eq_some_iff.mp hstep
  refine ⟨bounded.users, bounded.hostUser, ?_⟩
  apply (Function.forall_update_iff s.friend
    fun _ copy => ∀ screen, copy = some screen → screen.1.nesting ≤ s.sent).mpr
  refine ⟨?_, fun other _ => bounded.friend other⟩
  rintro _ ⟨⟩
  exact bounded.hostUser uid hostUser hhost

/-- The receiver of a request is nested one level deeper than the copy that was sent, if
not deeper already. -/
theorem nesting_addRequest {document : Document} {receiver requestingUser : User}
    (hdecode : decodeUser document = some receiver) {bound : Nat} {now : String}
    (hreceiver : receiver.nesting ≤ bound) (hrequesting : requestingUser.nesting ≤ bound) :
    ∃ user, decodeUser (addRequest ⟨now, requestingUser⟩ document) = some user ∧
      user.nesting ≤ bound + 1 := by
  refine ⟨_, decodeUser_addRequest_of_decodes hdecode, ?_⟩
  split
  · exact Nat.le_succ_of_le hreceiver
  · rw [User.nesting_concat, AddFriendNotification.withoutDocId, User.nesting_withoutDocId]
    exact Nat.max_le.mpr ⟨Nat.le_succ_of_le hreceiver, Nat.succ_le_succ hrequesting⟩

/-- The request puts the host user's copy one level deeper, and is one more request. -/
theorem nestedBySent_tapAddToFriendButton (bounded : NestedBySent s) {uid now : String}
    (hstep : s.step? (.tapAddToFriendButton uid now) = some t) : NestedBySent t := by
  obtain ⟨⟨requestingUser, receivingUser⟩, hfriend, rfl⟩ := Option.map_eq_some_iff.mp hstep
  have hrequesting : requestingUser.nesting ≤ s.sent := bounded.friend uid _ hfriend
  refine ⟨?_, fun other user hcopy => Nat.le_succ_of_le (bounded.hostUser other user hcopy),
    fun other screen hscreen => Nat.le_succ_of_le (bounded.friend other screen hscreen)⟩
  intro document membership
  rcases mem_sendNotification membership with kept | ⟨before, hbefore, _, rfl⟩
  · obtain ⟨user, hdecode, hbound⟩ := bounded.users document kept
    exact ⟨user, hdecode, Nat.le_succ_of_le hbound⟩
  · obtain ⟨receiver, hdecode, hbound⟩ := bounded.users before hbefore
    exact nesting_addRequest hdecode hbound hrequesting

theorem nestedBySent_step (bounded : NestedBySent s) {action : Action}
    (hstep : s.step? action = some t) : NestedBySent t := by
  cases action with
  | requestUserData uid => exact nestedBySent_requestUserData bounded hstep
  | openFriendViewController uid choosedUser =>
      exact nestedBySent_openFriendViewController bounded hstep
  | tapAddToFriendButton uid now => exact nestedBySent_tapAddToFriendButton bounded hstep

theorem nesting_le_zero {user : User} (empty : user.notificationArray = []) :
    user.nesting ≤ 0 := by
  rw [User.nesting_eq, empty]
  exact Nat.le_refl 0

theorem nestedBySent_initial {users : List Document} (empty : WithoutRequests users) :
    NestedBySent { users } := by
  refine ⟨?_, fun _ _ hcopy => (nomatch hcopy), fun _ _ hscreen => (nomatch hscreen)⟩
  intro document membership
  obtain ⟨user, hdecode, harray⟩ := empty document membership
  exact ⟨user, hdecode, nesting_le_zero harray⟩

/-! ## Two users who keep asking each other -/

/-- Equal maps of users have equally many requests. -/
theorem length_eq_of_sameValue {first second : User}
    (same : sameValue (.object first.dictionary) (.object second.dictionary) = true) :
    first.notificationArray.length = second.notificationArray.length := by
  have harray : ("notificationArray",
      .array (AddFriendNotification.dictionaries first.notificationArray)) ∈
        first.dictionary := by
    cases first
    exact List.mem_of_getLast? rfl
  obtain ⟨other, hlookup, hsame⟩ := sameValue_of_mem same harray
  rw [second.storedIn_dictionary.notificationArray, Option.some.injEq] at hlookup
  subst hlookup
  have hlength := length_eq_of_sameItems hsame
  rw [AddFriendNotification.dictionaries_eq_map, AddFriendNotification.dictionaries_eq_map,
    List.length_map, List.length_map] at hlength
  exact hlength

/-- A request is new when every stored one is of a user with other than as many requests. -/
theorem not_hasRequest {user : User} {document : Document}
    {notification : AddFriendNotification} (stored : user.StoredIn document.data)
    (different : ∀ request ∈ user.notificationArray,
      request.userFriend.notificationArray.length ≠
        notification.userFriend.notificationArray.length) :
    ¬ HasRequest document notification := by
  intro has
  rw [HasRequest, stored.notificationArray, holds, List.any_eq_true,
    AddFriendNotification.dictionaries_eq_map] at has
  obtain ⟨item, membership, hsame⟩ := has
  obtain ⟨request, hrequest, rfl⟩ := List.mem_map.mp membership
  have huser : ("userFriend", .object notification.userFriend.dictionary) ∈
      notification.dictionary := by
    cases notification
    exact List.mem_cons_self
  obtain ⟨other, hlookup, hother⟩ := sameValue_of_mem hsame huser
  rw [request.lookup_userFriend, Option.some.injEq] at hlookup
  subst hlookup
  exact different request hrequest (length_eq_of_sameValue hother).symm

/-- The document of a user with one more request. -/
theorem storedIn_addRequest {user : User} {document : Document}
    {notification : AddFriendNotification} (stored : user.StoredIn document.data)
    (new : ¬ HasRequest document notification) :
    User.StoredIn { user with notificationArray := user.notificationArray ++ [notification] }
      (addRequest notification document).data := by
  have harray : (addRequest notification document).data.lookup "notificationArray" =
      some (.array (AddFriendNotification.dictionaries
        (user.notificationArray ++ [notification]))) := by
    rw [HasRequest, stored.notificationArray] at new
    rw [addRequest, lookup_setKey_same, stored.notificationArray, arrayUnion, if_neg new,
      AddFriendNotification.dictionaries_eq_map, AddFriendNotification.dictionaries_eq_map,
      List.map_append]
    rfl
  constructor
  case notificationArray => exact harray
  all_goals
    rw [addRequest, lookup_setKey_of_ne _ _ (by decide)]
  exacts [stored.firstName, stored.lastName, stored.nick, stored.id, stored.mail,
    stored.friends, stored.playedGames, stored.wonGames, stored.lostGames, stored.wonCups]

def person : Bool → User
  | false => .anna
  | true => .boris

def uid : Bool → String
  | false => "u1"
  | true => "u2"

def documentId : Bool → String
  | false => "d1"
  | true => "d2"

/-- A stored user as a lookup returns it. -/
def loaded (user : User) (who : Bool) : User :=
  { user.withoutDocId with docId := some (documentId who) }

/-- One of the two loads the own profile, opens the other user and asks. -/
def ask (who : Bool) : List Action :=
  [.requestUserData (uid who),
   .openFriendViewController (uid who) (loaded (person !who) (!who)),
   .tapAddToFriendButton (uid who) "2022-12-20 10:00:00 +0000"]

/-- The two users are the stored ones, and their documents have these maps. -/
structure Stored (people : Bool → User) (data : Bool → Fields) (s : Requests) : Prop where
  users : s.users = [⟨documentId false, data false⟩, ⟨documentId true, data true⟩]
  storedIn : ∀ who, (people who).StoredIn (data who)
  id : ∀ who, (people who).id = some (uid who)

variable {people : Bool → User} {data : Bool → Fields}

theorem length_loaded (user : User) (who : Bool) :
    (loaded user who).notificationArray.length = user.notificationArray.length := by
  rw [loaded, User.withoutDocId_eq, List.length_map]

theorem nesting_loaded (user : User) (who : Bool) : (loaded user who).nesting = user.nesting := by
  rw [← user.nesting_withoutDocId, User.nesting_eq, User.nesting_eq]
  rfl

theorem getUserData_of_stored (stored : Stored people data s) (who : Bool) :
    getUserData (uid who) s.users = .ok [loaded (people who) who] := by
  have hfirst := receiveUser_of_storedIn (stored.storedIn false) (stored.id false)
    (documentId false) (uid who)
  have hsecond := receiveUser_of_storedIn (stored.storedIn true) (stored.id true)
    (documentId true) (uid who)
  rw [stored.users, getUserData, List.foldlM_cons]
  refine bind_eq_ok_iff.mpr ⟨_, hfirst _, ?_⟩
  rw [List.foldlM_cons]
  refine bind_eq_ok_iff.mpr ⟨_, hsecond _, ?_⟩
  cases who with
  | false => rfl
  | true => rfl

/-- A new request is stored with the other user. -/
theorem exists_run_ask (stored : Stored people data s) (who : Bool)
    (new : ∀ request ∈ (people !who).notificationArray,
      request.userFriend.notificationArray.length ≠ (people who).notificationArray.length) :
    ∃ next nextData, run? step? s (ask who) = some next ∧ next.sent = s.sent + 1 ∧
      Stored (Function.update people (!who)
        { people (!who) with
          notificationArray := (people !who).notificationArray ++
            [⟨"2022-12-20 10:00:00 +0000", loaded (people who) who⟩] }) nextData next := by
  let request : AddFriendNotification :=
    ⟨"2022-12-20 10:00:00 +0000", loaded (people who) who⟩
  let receiver : Document := ⟨documentId !who, data !who⟩
  have hnew : ¬ HasRequest receiver request := by
    apply not_hasRequest (stored.storedIn !who)
    intro older holder
    rw [length_loaded]
    exact new older holder
  refine ⟨{ s with
      hostUser := Function.update s.hostUser (uid who) (some (loaded (people who) who))
      friend := Function.update s.friend (uid who)
        (some (loaded (people who) who, loaded (person !who) (!who)))
      users := sendNotificationToAddToFriends (loaded (people who) who)
        (loaded (person !who) (!who)) "2022-12-20 10:00:00 +0000" s.users
      sent := s.sent + 1 },
    Function.update data (!who) (addRequest request receiver).data, ?_, rfl, ?_, ?_, ?_⟩
  · simp [ask, run?, step?, getUserData_of_stored stored]
  · dsimp only
    rw [stored.users]
    cases who with
    | false => rfl
    | true => rfl
  · intro other
    by_cases hother : other = !who
    · subst hother
      rw [Function.update_self, Function.update_self]
      exact storedIn_addRequest (stored.storedIn !who) hnew
    · rw [Function.update_of_ne hother, Function.update_of_ne hother]
      exact stored.storedIn other
  · exact (Function.forall_update_iff people fun other user => user.id = some (uid other)).mpr
      ⟨stored.id !who, fun other _ => stored.id other⟩

/-- The asker is nested `depth` deep, and the next request is one the other does not have. -/
structure Growing (who : Bool) (people : Bool → User) (depth : Nat) : Prop where
  received : ∀ request ∈ (people !who).notificationArray,
    request.userFriend.notificationArray.length < (people who).notificationArray.length
  own : ∀ request ∈ (people who).notificationArray,
    request.userFriend.notificationArray.length ≤ (people !who).notificationArray.length
  deep : depth ≤ (people who).nesting

/-- After a request the two change places, and the next asker is nested deeper. -/
theorem Growing.ask {who : Bool} {depth : Nat} (growing : Growing who people depth)
    (now : String) :
    Growing (!who) (Function.update people (!who)
      { people (!who) with
        notificationArray := (people !who).notificationArray ++
          [⟨now, loaded (people who) who⟩] }) (depth + 1) := by
  have hother : who ≠ !who := fun same => by cases who <;> cases same
  constructor
  · rw [Bool.not_not, Function.update_of_ne hother, Function.update_self, List.length_append]
    intro request membership
    exact Nat.lt_succ_of_le (growing.own request membership)
  · rw [Bool.not_not, Function.update_of_ne hother, Function.update_self]
    intro request membership
    rcases List.mem_append.mp membership with older | last
    · exact Nat.le_of_lt (growing.received request older)
    · rw [List.mem_singleton.mp last]
      exact Nat.le_of_eq (length_loaded (people who) who)
  · rw [Function.update_self, User.nesting_concat, nesting_loaded]
    exact Nat.le_trans (Nat.succ_le_succ growing.deep) (Nat.le_max_right _ _)

/-- Any number of requests, the two users asking in turn and doing nothing else. -/
theorem exists_run_growing (count : Nat) :
    ∃ actions final who people data, (∀ action ∈ actions, ∃ asker, action ∈ ask asker) ∧
      run? step? registered actions = some final ∧
      final.sent = count ∧ Stored people data final ∧ Growing who people count := by
  induction count with
  | zero =>
      have hstored : Stored person (fun who => addUser (person who)) registered := by
        refine ⟨rfl, fun who => addUser_storedIn (person who), fun who => ?_⟩
        cases who with
        | false => rfl
        | true => rfl
      have hempty : ∀ who, (person who).notificationArray = [] := fun who => by
        cases who <;> rfl
      refine ⟨[], registered, false, person, _, List.forall_mem_nil _, rfl, rfl, hstored, ?_, ?_,
        Nat.zero_le _⟩
      · rw [hempty]
        exact fun _ membership => absurd membership List.not_mem_nil
      · rw [hempty]
        exact fun _ membership => absurd membership List.not_mem_nil
  | succ count ih =>
      obtain ⟨actions, last, who, people, data, hasks, hrun, hsent, hstored, hgrowing⟩ := ih
      obtain ⟨next, nextData, hask, hnextSent, hnextStored⟩ := exists_run_ask hstored who
        fun request membership => Nat.ne_of_lt (hgrowing.received request membership)
      refine ⟨actions ++ ask who, next, !who, _, nextData, ?_, ?_, ?_, hnextStored,
        hgrowing.ask _⟩
      · exact List.forall_mem_append.mpr ⟨hasks, fun action hask => ⟨who, hask⟩⟩
      · rw [run?_append, hrun]
        exact hask
      · rw [hnextSent, hsent]

/-- The depth of the asker is the depth of a stored user. -/
theorem exists_document_of_growing {who : Bool} {depth : Nat} (stored : Stored people data s)
    (growing : Growing who people depth) :
    ∃ document ∈ s.users, ∃ user, decodeUser document = some user ∧ depth ≤ user.nesting := by
  refine ⟨⟨documentId who, data who⟩, ?_, loaded (people who) who,
    decodeUser_of_storedIn (stored.storedIn who) (documentId who), ?_⟩
  · rw [stored.users]
    cases who with
    | false => exact List.mem_cons_self
    | true => exact List.mem_cons_of_mem _ List.mem_cons_self
  · rw [nesting_loaded]
    exact growing.deep

theorem withoutRequests_registered : WithoutRequests registered.users := by
  intro document membership
  rcases List.mem_pair.mp membership with rfl | rfl
  · exact ⟨_, decodeUser_addUser .anna "d1", rfl⟩
  · exact ⟨_, decodeUser_addUser .boris "d2", rfl⟩

/--
For all users without requests and every run of loaded profiles and of requests from any
users to any others: in every state each stored user is nested at most as deep as requests
have been sent.
-/
theorem nested_by_sent_throughout {users : List Document} (empty : WithoutRequests users)
    (actions : List Action) :
    Throughout step? (fun s => NestedWithin s.sent s) { users } actions :=
  (throughout_of_preserved (fun bounded hstep => nestedBySent_step bounded hstep)
    (nestedBySent_initial empty) actions).imp fun bounded => bounded.users

/-- Two users ask each other in turn: after three requests no stored user is nested more
than three levels deep. -/
theorem nested_by_sent_throughout_registered :
    let actions := ask false ++ ask true ++ ask false
    ∃ final, run? step? { users := registered.users } actions = some final ∧
      final.sent = 3 ∧ NestedWithin 3 final := by
  intro actions
  have hsent : ((run? step? { users := registered.users } actions).map fun final =>
      final.sent) = some 3 := by
    decide +kernel
  obtain ⟨final, hrun, hfinal⟩ := Option.map_eq_some_iff.mp hsent
  have hnested : NestedWithin final.sent final :=
    (nested_by_sent_throughout withoutRequests_registered actions).last hrun
  exact ⟨final, hrun, hfinal, hfinal ▸ hnested⟩

/-- Two users who keep asking each other are nested deeper than any bound. -/
theorem nesting_has_no_bound :
    ¬ ∃ bound, ∀ users, WithoutRequests users → ∀ actions : List Action,
      Throughout step? (NestedWithin bound) { users } actions := by
  rintro ⟨bound, hbound⟩
  obtain ⟨actions, final, who, people, data, _, hrun, _, hstored, hgrowing⟩ :=
    exists_run_growing (bound + 1)
  obtain ⟨document, hdocument, user, hdecode, hdeep⟩ :=
    exists_document_of_growing hstored hgrowing
  obtain ⟨read, hread, hwithin⟩ :=
    (hbound registered.users withoutRequests_registered actions).last hrun document hdocument
  rw [hdecode] at hread
  cases hread
  exact absurd hwithin (by omega)

end Profile.Requests

end AnyCompetition
