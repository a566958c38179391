import AnyCompetition.Models.User

/-!
# Reading users back from documents

The synthesised decoder of a user reads every stored property by its name.  The
two types decode each other, so the decoder is cut at a number of levels; a
document needs no more levels than it has.
-/

namespace AnyCompetition

open Json

/-! ## Decoding -/

/-- The synthesised decoder of a request, over the decoder of a user. -/
def AddFriendNotification.read (readUser : Json → Option User) (json : Json) :
    Option AddFriendNotification := do
  let fields ← json.fields?
  let date ← required fields "date" string?
  let userFriend ← required fields "userFriend" readUser
  return { date, userFriend }

/-- The synthesised decoder of a user, for documents of at most `depth` levels. -/
def User.readTo : Nat → Json → Option User
  | 0, _ => none
  | depth + 1, json => do
      let fields ← json.fields?
      let firstName ← required fields "firstName" string?
      let lastName ← required fields "lastName" string?
      let nick ← required fields "nick" string?
      let docId ← ifPresent fields "docId" string?
      let id ← ifPresent fields "id" string?
      let mail ← required fields "mail" string?
      let friends ← ifPresent fields "friends" (listOf string?)
      let playedGames ← required fields "playedGames" int?
      let wonGames ← required fields "wonGames" int?
      let lostGames ← required fields "lostGames" int?
      let wonCups ← required fields "wonCups" int?
      let notificationArray ← required fields "notificationArray"
        (listOf (AddFriendNotification.read (User.readTo depth)))
      return {
        firstName, lastName, nick, docId, id, mail, friends, playedGames, wonGames,
        lostGames, wonCups, notificationArray }

/-- The synthesised `Decodable` of a user. -/
def User.decode (json : Json) : Option User :=
  User.readTo json.depth json

/-- Only the requesting user inside the request is handed to the nested decoder. -/
theorem AddFriendNotification.read_congr {first second : Json → Option User}
    {json : Json}
    (agree : ∀ value : Json, value.depth < json.depth → first value = second value) :
    AddFriendNotification.read first json = AddFriendNotification.read second json := by
  cases json with
  | object fields =>
      have hnested : required fields "userFriend" first =
          required fields "userFriend" second :=
        required_congr fun value found =>
          agree value (Nat.lt_succ_of_le (depth_le_depthFields found))
      simp only [read, fields?, Option.bind_eq_bind, Option.bind_some, hnested]
  | _ => simp only [read, fields?, Option.bind_eq_bind, Option.bind_none]

/-- What the decoder of a user reads in a map. -/
structure User.ReadFrom (readNotification : Json → Option AddFriendNotification)
    (fields : Fields) (user : User) : Prop where
  firstName : required fields "firstName" string? = some user.firstName
  lastName : required fields "lastName" string? = some user.lastName
  nick : required fields "nick" string? = some user.nick
  docId : ifPresent fields "docId" string? = some user.docId
  id : ifPresent fields "id" string? = some user.id
  mail : required fields "mail" string? = some user.mail
  friends : ifPresent fields "friends" (listOf string?) = some user.friends
  playedGames : required fields "playedGames" int? = some user.playedGames
  wonGames : required fields "wonGames" int? = some user.wonGames
  lostGames : required fields "lostGames" int? = some user.lostGames
  wonCups : required fields "wonCups" int? = some user.wonCups
  notificationArray : required fields "notificationArray" (listOf readNotification) =
    some user.notificationArray

/-- A map is decoded as a user exactly when each of its entries is. -/
theorem User.readTo_eq_some_iff {depth : Nat} {fields : Fields} {user : User} :
    User.readTo (depth + 1) (.object fields) = some user ↔
      user.ReadFrom (AddFriendNotification.read (User.readTo depth)) fields := by
  rw [User.readTo]
  simp only [bind_eq_some_iff]
  constructor
  · rintro ⟨_, ⟨⟩, _, hfirstName, _, hlastName, _, hnick, _, hdocId, _, hid, _, hmail,
      _, hfriends, _, hplayed, _, hwon, _, hlost, _, hcups, _, hnotifications, ⟨⟩⟩
    exact ⟨hfirstName, hlastName, hnick, hdocId, hid, hmail, hfriends, hplayed, hwon, hlost,
      hcups, hnotifications⟩
  · intro entries
    cases user
    exact ⟨fields, rfl, _, entries.firstName, _, entries.lastName, _, entries.nick,
      _, entries.docId, _, entries.id, _, entries.mail, _, entries.friends,
      _, entries.playedGames, _, entries.wonGames, _, entries.lostGames, _, entries.wonCups,
      _, entries.notificationArray, rfl⟩

/-- Only a map is decoded as a user. -/
theorem User.readTo_of_fields?_eq_none {json : Json} (hfields : json.fields? = none)
    (depth : Nat) : User.readTo depth json = none := by
  cases depth with
  | zero => rfl
  | succ depth =>
      rw [User.readTo, hfields]
      rfl

/-- Levels beyond the depth of the document change nothing. -/
theorem User.readTo_eq_of_depth_le {json : Json} {first second : Nat}
    (hfirst : json.depth ≤ first) (hsecond : json.depth ≤ second) :
    User.readTo first json = User.readTo second json := by
  induction first generalizing json second with
  | zero =>
      cases json <;> simp [depth] at hfirst
  | succ first ih =>
      cases second with
      | zero => cases json <;> simp [depth] at hsecond
      | succ second =>
          cases json with
          | object fields =>
              have hnested : required fields "notificationArray"
                  (listOf (AddFriendNotification.read (User.readTo first))) =
                required fields "notificationArray"
                  (listOf (AddFriendNotification.read (User.readTo second))) := by
                apply required_congr
                intro value found
                have hvalue : value.depth ≤ depthFields fields := depth_le_depthFields found
                apply listOf_congr
                intro items item harray membership
                have hitem : item.depth < value.depth := depth_lt_of_mem harray membership
                apply AddFriendNotification.read_congr
                intro userFriend huser
                rw [depth] at hfirst hsecond
                exact ih (by omega) (by omega)
              apply Option.ext
              intro user
              rw [User.readTo_eq_some_iff, User.readTo_eq_some_iff]
              constructor
              · intro entries
                exact { entries with
                  notificationArray := hnested.symm.trans entries.notificationArray }
              · intro entries
                exact { entries with
                  notificationArray := hnested.trans entries.notificationArray }
          | _ =>
              rw [User.readTo_of_fields?_eq_none rfl, User.readTo_of_fields?_eq_none rfl]

/-- The entries of a map that the decoder of a user needs, all but the document id. -/
structure User.StoredIn (user : User) (fields : Fields) : Prop where
  firstName : fields.lookup "firstName" = some (.string user.firstName)
  lastName : fields.lookup "lastName" = some (.string user.lastName)
  nick : fields.lookup "nick" = some (.string user.nick)
  id : fields.lookup "id" = some (ofOption .string user.id)
  mail : fields.lookup "mail" = some (.string user.mail)
  friends : fields.lookup "friends" =
    some (ofOption (fun friends => .array (friends.map .string)) user.friends)
  playedGames : fields.lookup "playedGames" = some (.number user.playedGames)
  wonGames : fields.lookup "wonGames" = some (.number user.wonGames)
  lostGames : fields.lookup "lostGames" = some (.number user.lostGames)
  wonCups : fields.lookup "wonCups" = some (.number user.wonCups)
  notificationArray : fields.lookup "notificationArray" =
    some (.array (AddFriendNotification.dictionaries user.notificationArray))

/-- The user's own map has every entry its decoder needs. -/
theorem User.storedIn_dictionary (user : User) : user.StoredIn user.dictionary := by
  cases user
  constructor <;> rfl

/-- Setting the document id touches no other entry. -/
theorem User.StoredIn.setDocId {user : User} {fields : Fields}
    (stored : user.StoredIn fields) (value : Json) :
    user.StoredIn (setKey fields "docId" value) := by
  constructor
  all_goals
    rw [lookup_setKey_of_ne _ _ (by decide)]
  exacts [stored.firstName, stored.lastName, stored.nick, stored.id, stored.mail,
    stored.friends, stored.playedGames, stored.wonGames, stored.lostGames,
    stored.wonCups, stored.notificationArray]

/-- The map of a user has no document id. -/
theorem User.docId_dictionary (user : User) :
    ifPresent user.dictionary "docId" string? = some none := by
  cases user
  rfl

theorem AddFriendNotification.lookup_userFriend (notification : AddFriendNotification) :
    notification.dictionary.lookup "userFriend" =
      some (.object notification.userFriend.dictionary) := by
  cases notification
  rfl

/-- A request is read back once its requesting user is. -/
theorem AddFriendNotification.read_dictionary {readUser : Json → Option User}
    {notification : AddFriendNotification}
    (readable : readUser (.object notification.userFriend.dictionary) =
      some notification.userFriend.withoutDocId) :
    AddFriendNotification.read readUser (.object notification.dictionary) =
      some notification.withoutDocId := by
  cases notification with
  | mk date userFriend =>
      have huser : required (dictionary ⟨date, userFriend⟩) "userFriend" readUser =
          some userFriend.withoutDocId := readable
      have hdate : required (dictionary ⟨date, userFriend⟩) "date" string? = some date := rfl
      simp only [read, fields?, huser, hdate, Option.bind_eq_bind, Option.bind_some,
        Option.pure_def, withoutDocId]

/--
A map with the entries of a user is read back as the user with no nested
document ids; its own document id is the one the map has.
-/
theorem User.readTo_of_storedIn {user : User} {fields : Fields} {depth : Nat}
    {docId : Option String} (stored : user.StoredIn fields)
    (hdocId : ifPresent fields "docId" string? = some docId)
    (hdepth : depthFields fields ≤ depth) :
    User.readTo (depth + 1) (.object fields) =
      some { user.withoutDocId with docId := docId } := by
  induction depth generalizing user fields docId with
  | zero =>
      have hnested := depth_le_depthFields stored.notificationArray
      simp only [Json.depth] at hnested
      omega
  | succ depth ih =>
      have hnested := depth_le_depthFields stored.notificationArray
      simp only [Json.depth] at hnested
      have hnotifications : listOf (AddFriendNotification.read (User.readTo (depth + 1)))
          (.array (AddFriendNotification.dictionaries user.notificationArray)) =
          some (user.notificationArray.map AddFriendNotification.withoutDocId) := by
        rw [AddFriendNotification.dictionaries_eq_map] at hnested ⊢
        apply listOf_map
        intro notification membership
        have hitem := depth_le_depthItems (List.mem_map_of_mem
          (f := fun notification => Json.object notification.dictionary) membership)
        have huser := depth_le_depthFields notification.lookup_userFriend
        simp only [Json.depth] at hitem huser
        apply AddFriendNotification.read_dictionary
        rw [ih notification.userFriend.storedIn_dictionary
          notification.userFriend.docId_dictionary (by omega)]
        rw [User.withoutDocId_eq]
      have hid := ifPresent_ofOption string? stored.id (fun _ => rfl)
        (fun _ => Json.noConfusion)
      have hfriends := ifPresent_ofOption _ stored.friends listOf_strings
        (fun _ => Json.noConfusion)
      rw [User.withoutDocId_eq]
      refine User.readTo_eq_some_iff.mpr ⟨required_of_lookup stored.firstName _,
        required_of_lookup stored.lastName _, required_of_lookup stored.nick _, hdocId, hid,
        required_of_lookup stored.mail _, hfriends, required_of_lookup stored.playedGames _,
        required_of_lookup stored.wonGames _, required_of_lookup stored.lostGames _,
        required_of_lookup stored.wonCups _, ?_⟩
      rw [required_of_lookup stored.notificationArray, hnotifications]

/-- Reading back a map that has the entries of a user and a document id. -/
theorem User.decode_of_storedIn {user : User} {fields : Fields} {docId : Option String}
    (stored : user.StoredIn fields)
    (hdocId : ifPresent fields "docId" string? = some docId) :
    User.decode (.object fields) = some { user.withoutDocId with docId := docId } :=
  User.readTo_of_storedIn stored hdocId (Nat.le_refl _)

/-- A map is decoded with any number of levels that is enough for it. -/
theorem User.decode_eq_some_iff {fields : Fields} {user : User} {depth : Nat}
    (hdepth : depthFields fields ≤ depth) :
    User.decode (.object fields) = some user ↔
      user.ReadFrom (AddFriendNotification.read (User.readTo depth)) fields := by
  rw [User.decode, User.readTo_eq_of_depth_le (Nat.le_refl _) (Nat.succ_le_succ hdepth),
    User.readTo_eq_some_iff]

/-- The document id of a decoded user is that of its map. -/
theorem User.docId_of_decode {fields : Fields} {user : User}
    (decoded : User.decode (.object fields) = some user) :
    ifPresent fields "docId" string? = some user.docId :=
  ((User.decode_eq_some_iff (Nat.le_refl _)).mp decoded).docId

/-- The map of a user is read back as the user without document ids. -/
@[simp]
theorem User.decode_dictionary (user : User) :
    User.decode (.object user.dictionary) = some user.withoutDocId := by
  rw [User.decode_of_storedIn user.storedIn_dictionary user.docId_dictionary,
    User.withoutDocId_eq]

/-! ## Maps that differ in one entry -/

/-- A map that differs in its friends and requests is read with these instead. -/
theorem User.ReadFrom.setLists
    {readNotification : Json → Option AddFriendNotification} {fields next : Fields} {user : User}
    {friends : Option (List String)} {notifications : List AddFriendNotification}
    (entries : user.ReadFrom readNotification fields)
    (same : ∀ key, key ≠ "friends" → key ≠ "notificationArray" →
      next.lookup key = fields.lookup key)
    (hfriends : ifPresent next "friends" (listOf string?) = some friends)
    (hnotifications : required next "notificationArray" (listOf readNotification) =
      some notifications) :
    { user with friends, notificationArray := notifications }.ReadFrom readNotification next := by
  constructor
  case friends => exact hfriends
  case notificationArray => exact hnotifications
  case docId =>
    rw [ifPresent_of_lookup_eq (same "docId" (by decide) (by decide))]
    exact entries.docId
  case id =>
    rw [ifPresent_of_lookup_eq (same "id" (by decide) (by decide))]
    exact entries.id
  all_goals
    rw [required_of_lookup_eq (same _ (by decide) (by decide))]
  exacts [entries.firstName, entries.lastName, entries.nick, entries.mail,
    entries.playedGames, entries.wonGames, entries.lostGames, entries.wonCups]

/-- The decoder of a user reads only the entries it asks for: a map that differs
in its friends is read back with the other friends. -/
theorem User.decode_of_friends {fields next : Fields} {user : User}
    {friends : Option (List String)}
    (decoded : User.decode (.object fields) = some user)
    (same : ∀ key, key ≠ "friends" → next.lookup key = fields.lookup key)
    (written : next.lookup "friends" =
      some (ofOption (fun friends => .array (friends.map .string)) friends)) :
    User.decode (.object next) = some { user with friends } := by
  have hfriends := ifPresent_ofOption _ written listOf_strings (fun _ => Json.noConfusion)
  -- both maps are read with levels enough for either
  have hfields := Nat.le_max_left (depthFields fields) (depthFields next)
  have hnext := Nat.le_max_right (depthFields fields) (depthFields next)
  have entries := (User.decode_eq_some_iff hfields).mp decoded
  refine (User.decode_eq_some_iff hnext).mpr ?_
  apply entries.setLists (fun key hkey _ => same key hkey) hfriends
  rw [required_of_lookup_eq (same "notificationArray" (by decide))]
  exact entries.notificationArray

/-- A map that differs in its requests is read with the other requests. -/
theorem User.ReadFrom.setNotificationArray
    {readNotification : Json → Option AddFriendNotification} {fields next : Fields} {user : User}
    {notifications : List AddFriendNotification} (entries : user.ReadFrom readNotification fields)
    (same : ∀ key, key ≠ "notificationArray" → next.lookup key = fields.lookup key)
    (readable : required next "notificationArray" (listOf readNotification) =
      some notifications) :
    { user with notificationArray := notifications }.ReadFrom readNotification next := by
  refine entries.setLists (fun key _ hkey => same key hkey) ?_ readable
  rw [ifPresent_of_lookup_eq (same "friends" (by decide))]
  exact entries.friends

/-- Maps with the same entries are read alike. -/
theorem User.decode_of_lookup_eq {fields next : Fields}
    (same : ∀ key, next.lookup key = fields.lookup key) :
    User.decode (.object next) = User.decode (.object fields) := by
  have hfields := Nat.le_max_left (depthFields fields) (depthFields next)
  have hnext := Nat.le_max_right (depthFields fields) (depthFields next)
  apply Option.ext
  intro user
  rw [User.decode_eq_some_iff hfields, User.decode_eq_some_iff hnext]
  cases user
  constructor
  · intro entries
    exact entries.setNotificationArray (fun key _ => (same key).symm)
      ((required_of_lookup_eq (same _).symm _).trans entries.notificationArray)
  · intro entries
    exact entries.setNotificationArray (fun key _ => same key)
      ((required_of_lookup_eq (same _) _).trans entries.notificationArray)

/-- The requests of a user that is read are stored in an array. -/
theorem User.lookup_notificationArray {fields : Fields} {user : User}
    (decoded : User.decode (.object fields) = some user) :
    ∃ items, fields.lookup "notificationArray" = some (.array items) := by
  have entries := (User.decode_eq_some_iff (Nat.le_refl _)).mp decoded
  obtain ⟨value, hvalue, hread⟩ := Option.bind_eq_some_iff.mp entries.notificationArray
  obtain ⟨items, hitems, _⟩ := Option.bind_eq_some_iff.mp hread
  cases value with
  | array stored => exact ⟨stored, hvalue⟩
  | _ => cases hitems

/-- A request stored in an array is read with the levels of the map. -/
theorem AddFriendNotification.read_of_mem {fields : Fields} {items : List Json} {depth : Nat}
    {notification : AddFriendNotification}
    (stored : fields.lookup "notificationArray" = some (.array items))
    (membership : .object notification.dictionary ∈ items)
    (hdepth : depthFields fields ≤ depth) :
    AddFriendNotification.read (User.readTo depth) (.object notification.dictionary) =
      some notification.withoutDocId := by
  have harray := depth_le_depthFields stored
  have hitem := depth_le_depthItems membership
  have huser := depth_le_depthFields notification.lookup_userFriend
  simp only [Json.depth] at harray hitem huser
  apply AddFriendNotification.read_dictionary
  have henough : (object notification.userFriend.dictionary).depth ≤ depth := by
    simp only [Json.depth]
    omega
  rw [← User.readTo_eq_of_depth_le (Nat.le_refl _) henough]
  exact notification.userFriend.decode_dictionary

/-- A map with one request more is read back with that request after the others. -/
theorem User.decode_append_iff {fields next : Fields} {items : List Json}
    {notification : AddFriendNotification} {user : User}
    (stored : fields.lookup "notificationArray" = some (.array items))
    (same : ∀ key, key ≠ "notificationArray" → next.lookup key = fields.lookup key)
    (written : next.lookup "notificationArray" =
      some (.array (items ++ [.object notification.dictionary]))) :
    User.decode (.object next) = some user ↔
      ∃ before, User.decode (.object fields) = some before ∧
        user = { before with
          notificationArray := before.notificationArray ++ [notification.withoutDocId] } := by
  have hfields := Nat.le_max_left (depthFields fields) (depthFields next)
  have hnext := Nat.le_max_right (depthFields fields) (depthFields next)
  have hread := AddFriendNotification.read_of_mem written
    (List.mem_append_right _ List.mem_cons_self) hnext
  have hwritten (readNotification : Json → Option AddFriendNotification) :=
    required_of_lookup written (listOf readNotification)
  have hstored (readNotification : Json → Option AddFriendNotification) :=
    required_of_lookup stored (listOf readNotification)
  simp only [listOf, items?, Option.bind_eq_bind, Option.bind_some] at hwritten hstored
  simp only [User.decode_eq_some_iff hfields, User.decode_eq_some_iff hnext]
  constructor
  · intro entries
    have hnotifications := entries.notificationArray
    rw [hwritten] at hnotifications
    obtain ⟨before, last, hbefore, hlast, hboth⟩ := readAll_concat_eq_some_iff.mp hnotifications
    rw [hread] at hlast
    cases hlast
    refine ⟨{ user with notificationArray := before }, ?_, ?_⟩
    · exact entries.setNotificationArray (fun key hkey => (same key hkey).symm)
        ((hstored _).trans hbefore)
    · cases user
      cases hboth
      rfl
  · rintro ⟨before, entries, rfl⟩
    have hnotifications := entries.notificationArray
    rw [hstored] at hnotifications
    apply entries.setNotificationArray same
    rw [hwritten]
    exact readAll_concat_eq_some_iff.mpr ⟨_, _, hnotifications, hread, rfl⟩

/-- A map whose array is one request is read with that request alone. -/
theorem User.notificationArray_of_single {fields : Fields}
    {notification : AddFriendNotification} {user : User}
    (stored : fields.lookup "notificationArray" =
      some (.array [.object notification.dictionary]))
    (decoded : User.decode (.object fields) = some user) :
    user.notificationArray = [notification.withoutDocId] := by
  have hread := AddFriendNotification.read_of_mem stored List.mem_cons_self (Nat.le_refl _)
  have hnotifications := ((User.decode_eq_some_iff (Nat.le_refl _)).mp decoded).notificationArray
  rw [required_of_lookup stored] at hnotifications
  have hlist : listOf (AddFriendNotification.read (User.readTo (depthFields fields)))
      (.array [.object notification.dictionary]) = some [notification.withoutDocId] := by
    simp [listOf, items?, readAll, hread]
  rw [hlist] at hnotifications
  exact (Option.some.inj hnotifications).symm

end AnyCompetition
