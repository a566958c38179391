import AnyCompetition.Controllers.SentCompetition
import AnyCompetition.Controllers.UserSearch
import AnyCompetition.Library.FirstOfEach
import AnyCompetition.Library.RunHistory
import AnyCompetition.Models.UserEquality

/-!
# The screen of a new competition

Its players are the starting user and the users tapped in the results of the search, each
of which was read from the users collection.  Of users that are equal the first one stays.
-/

namespace AnyCompetition

open Json Trap GuardedRun FirstOfEach UserSearch

/-- A tap on a row of the results. -/
def SearchTableView.didSelectRowAt (table : SearchTableView) (row : Int) : Except Trap User :=
  element table.foundUsers row

/-- The players chosen, the table that shows them, and the search. -/
structure NewCompetition where
  screen : AddCompetitionViewController
  /-- `playersTable.playersArray`. -/
  playersTable : List User
  search : UserSearch
  /-- All that `searchTable.choosedUser` has emitted. -/
  emitted : List User := []

namespace NewCompetition

inductive Action where
  | text (query : String)
  /-- The documents of an answer to `getAllUsers`. -/
  | receiveUsers (documents : List Document)
  | tapRow (row : Nat)

def viewDidLoad (user : Option User) : NewCompetition where
  screen := .viewDidLoad user
  playersTable := (AddCompetitionViewController.viewDidLoad user).playersArray
  search := .viewDidLoad .addCompetitionViewController

/-- The closure subscribed to `searchTable.choosedUser`. -/
def choosedUser (s : NewCompetition) (user : User) : NewCompetition :=
  if s.screen.playersArray.any fun player => player == user then s
  else
    let screen := s.screen.choosedUser user
    { s with screen, playersTable := screen.playersArray }

variable (hasPrefix : String → String → Bool)

def step? (s : NewCompetition) : Action → Option NewCompetition
  | .text query =>
      (UserSearch.step? hasPrefix .addCompetitionViewController s.search (.text query)).map
        fun search => { s with search }
  | .receiveUsers documents =>
      (UserSearch.step? hasPrefix .addCompetitionViewController s.search
        (.receiveUsers (Database.getAllUsers documents))).map fun search => { s with search }
  | .tapRow row =>
      if s.search.isSearchTableShown ∧ row < s.search.searchTable.numberOfItems then
        match s.search.searchTable.didSelectRowAt row with
        | .error _ => none
        | .ok user =>
            let next := s.choosedUser user
            some { next with emitted := next.emitted ++ [user] }
      else none

/-- A user read from a document of an answer. -/
def IsRead (actions : List Action) (user : User) : Prop :=
  ∃ documents, .receiveUsers documents ∈ actions ∧
    ∃ document ∈ documents, Database.decodeUser document = some user

/-- A user read from a document whose names start with a text that was searched for. -/
def IsFound (actions : List Action) (user : User) : Prop :=
  IsRead actions user ∧ ∃ query, .text query ∈ actions ∧ query ≠ "" ∧
    (hasPrefix user.nick query || hasPrefix user.firstName query ||
      hasPrefix user.lastName query) = true

/-- The state after these actions of a screen of this user. -/
structure Sound (user : Option User) (actions : List Action) (s : NewCompetition) : Prop where
  users : ∀ known ∈ s.search.users, IsRead actions known
  found : ∀ known ∈ s.search.searchTable.foundUsers, IsFound hasPrefix actions known
  emitted : ∀ known ∈ s.emitted, IsFound hasPrefix actions known
  players : s.screen.playersArray = (user.toList ++ s.emitted).eraseDups
  playersTable : s.playersTable = s.screen.playersArray

variable {hasPrefix} {s t : NewCompetition} {actions : List Action} {known : User}

theorem IsRead.append (read : IsRead actions known) (later : List Action) :
    IsRead (actions ++ later) known := by
  obtain ⟨documents, hdocuments, hread⟩ := read
  exact ⟨documents, List.mem_append_left later hdocuments, hread⟩

theorem IsFound.append (found : IsFound hasPrefix actions known) (later : List Action) :
    IsFound hasPrefix (actions ++ later) known := by
  obtain ⟨read, query, hquery, hrest⟩ := found
  exact ⟨read.append later, query, List.mem_append_left later hquery, hrest⟩

/-- No row of the results is out of range. -/
theorem didSelectRowAt_eq_ok {table : SearchTableView} {row : Nat}
    (shown : row < table.numberOfItems) :
    ∃ user ∈ table.foundUsers, table.didSelectRowAt row = .ok user := by
  have hrow : row < table.foundUsers.length := by
    rw [← table.counted]
    exact shown
  exact ⟨table.foundUsers[row], List.getElem_mem hrow,
    element_of_getElem? (List.getElem?_eq_getElem hrow)⟩

theorem playersArray_viewDidLoad (user : Option User) :
    (viewDidLoad user).screen.playersArray = user.toList.eraseDups := by
  cases user <;> rfl

/-- The players after a user is chosen, and the table shows them. -/
theorem choosedUser_players (s : NewCompetition) (user : User)
    (shows : s.playersTable = s.screen.playersArray) :
    (s.choosedUser user).screen.playersArray =
        (if s.screen.playersArray.any (user == ·) then s.screen.playersArray
          else s.screen.playersArray ++ [user]) ∧
      (s.choosedUser user).playersTable = (s.choosedUser user).screen.playersArray := by
  have hsymm : (s.screen.playersArray.any fun player => player == user) =
      s.screen.playersArray.any (user == ·) := by
    congr 1
    funext player
    exact BEq.comm
  rw [choosedUser, hsymm]
  split
  · exact ⟨rfl, shows⟩
  · rename_i hnew
    refine ⟨?_, rfl⟩
    rw [AddCompetitionViewController.choosedUser, hsymm, if_neg hnew]

theorem choosedUser_kept (s : NewCompetition) (user : User) :
    (s.choosedUser user).search = s.search ∧ (s.choosedUser user).emitted = s.emitted := by
  unfold choosedUser
  split <;> exact ⟨rfl, rfl⟩

theorem sound_viewDidLoad (user : Option User) :
    Sound hasPrefix user [] (viewDidLoad user) where
  users _ membership := by cases membership
  found _ membership := by cases membership
  emitted _ membership := by cases membership
  players := by
    rw [playersArray_viewDidLoad]
    exact congrArg List.eraseDups (List.append_nil _).symm
  playersTable := rfl

/-- What is found is of the users read, and matches the text. -/
theorem isFound_of_mem_matching {users : List User} {query : String}
    (read : ∀ known ∈ users, IsRead actions known) (typed : .text query ∈ actions)
    (membership : known ∈ UserSearch.matching hasPrefix users (some query)) :
    IsFound hasPrefix actions known := by
  by_cases hquery : query = ""
  · subst hquery
    cases membership
  · rw [UserSearch.matching_of_ne_empty hasPrefix users hquery] at membership
    obtain ⟨hmember, hmatches⟩ := UserSearch.mem_found_iff.mp membership
    exact ⟨read known hmember, query, typed, hquery, hmatches⟩

theorem Sound.step {user : Option User} (sound : Sound hasPrefix user actions s)
    {action : Action} (hstep : step? hasPrefix s action = some t) :
    Sound hasPrefix user (actions ++ [action]) t := by
  have read : ∀ known ∈ s.search.users, IsRead (actions ++ [action]) known :=
    fun known membership => (sound.users known membership).append [action]
  have found : ∀ known ∈ s.search.searchTable.foundUsers,
      IsFound hasPrefix (actions ++ [action]) known :=
    fun known membership => (sound.found known membership).append [action]
  have emitted : ∀ known ∈ s.emitted, IsFound hasPrefix (actions ++ [action]) known :=
    fun known membership => (sound.emitted known membership).append [action]
  cases action with
  | text query =>
      rw [step?] at hstep
      obtain ⟨search, hsearch, rfl⟩ := Option.map_eq_some_iff.mp hstep
      rw [UserSearch.step?] at hsearch
      split at hsearch
      · cases hsearch
        exact ⟨read, found, emitted, sound.players, sound.playersTable⟩
      · cases hsearch
        obtain ⟨husers, hfound⟩ :=
          UserSearch.observe_eq hasPrefix .addCompetitionViewController s.search query
        refine ⟨?_, ?_, emitted, sound.players, sound.playersTable⟩
        · intro known membership
          exact read known (husers ▸ membership)
        · intro known membership
          exact isFound_of_mem_matching read
            (List.mem_append_right _ (List.mem_singleton_self _)) (hfound ▸ membership)
  | receiveUsers documents =>
      rw [step?] at hstep
      obtain ⟨search, hsearch, rfl⟩ := Option.map_eq_some_iff.mp hstep
      cases hsearch
      refine ⟨?_, found, emitted, sound.players, sound.playersTable⟩
      intro known membership
      have hdecoded : known ∈ Database.getAllUsers documents := membership
      rw [Database.getAllUsers, Database.appendDecoded_eq] at hdecoded
      obtain ⟨document, hdocument, hdecode⟩ := List.mem_filterMap.mp hdecoded
      exact ⟨documents, List.mem_append_right _ (List.mem_singleton_self _), document, hdocument,
        hdecode⟩
  | tapRow row =>
      rw [step?] at hstep
      split at hstep
      · rename_i shown
        obtain ⟨chosen, hchosen, htap⟩ := didSelectRowAt_eq_ok shown.2
        rw [htap] at hstep
        cases hstep
        obtain ⟨hplayers, htable⟩ := choosedUser_players s chosen sound.playersTable
        obtain ⟨hsearch, hemitted⟩ := choosedUser_kept s chosen
        refine ⟨?_, ?_, ?_, ?_, htable⟩
        · intro known membership
          exact read known (hsearch ▸ membership)
        · intro known membership
          exact found known (hsearch ▸ membership)
        · intro known membership
          rcases List.mem_append.mp membership with earlier | last
          · exact emitted known (hemitted ▸ earlier)
          · rw [List.mem_singleton.mp last]
            exact found chosen hchosen
        · rw [hplayers, hemitted, ← List.append_assoc, eraseDups_concat, ← sound.players]
      · cases hstep

theorem sound_of_run {user : Option User}
    (hrun : run? (step? hasPrefix) (viewDidLoad user) actions = some s) :
    Sound hasPrefix user actions s :=
  run?_history_invariant (sound_viewDidLoad user) (fun _ sound hstep => sound.step hstep) hrun

/-- A player other than the starting one was found by a search. -/
theorem Sound.isFound {user : Option User} (sound : Sound hasPrefix user actions s) {player : User}
    (membership : player ∈ s.screen.playersArray) :
    some player = user ∨ IsFound hasPrefix actions player := by
  rw [sound.players] at membership
  rcases List.mem_append.mp ((eraseDups_sublist _).subset membership) with own | tapped
  · left
    exact (Option.mem_toList.mp own).symm
  · exact Or.inr (sound.emitted player tapped)

/--
However texts, answers and taps are ordered: the players are the starting user and the
users tapped so far, the first of equal ones, in this order; the table of players shows them;
everyone chosen is equal to exactly one player; and every player but the starting one
was read from a document of an answer and starts with a text that was searched for.
-/
theorem players_are_chosen {user : Option User}
    (hrun : run? (step? hasPrefix) (viewDidLoad user) actions = some s) :
    s.screen.playersArray = (user.toList ++ s.emitted).eraseDups ∧
      s.playersTable = s.screen.playersArray ∧
      (∀ chosen ∈ user.toList ++ s.emitted,
        ∃! player, player ∈ s.screen.playersArray ∧ (chosen == player) = true) ∧
      ∀ player ∈ s.screen.playersArray, some player = user ∨ IsFound hasPrefix actions player := by
  have sound := sound_of_run hrun
  refine ⟨sound.players, sound.playersTable, ?_, fun player => sound.isFound⟩
  intro chosen membership
  obtain ⟨player, hplayer, hequal⟩ := exists_mem_eraseDups membership
  rw [sound.players]
  refine ⟨player, ⟨hplayer, hequal⟩, ?_⟩
  rintro other ⟨hother, hsame⟩
  exact eq_of_mem_eraseDups hother hplayer (BEq.trans (BEq.symm hsame) hequal)

/-- One user is found and tapped twice. -/
def tappedTwice : List Action :=
  [.text "",
    .receiveUsers [⟨"d1", Database.addUser .anna⟩, ⟨"d2", Database.addUser .boris⟩],
    .text "bor", .tapRow 0, .tapRow 0]

theorem players_are_chosen_tapped_twice :
    ∃ final, run? (step? startsWith) (viewDidLoad (some .anna)) tappedTwice = some final ∧
      final.emitted.length = 2 ∧ final.screen.playersArray.length = 2 ∧
      final.screen.playersArray = ((some User.anna).toList ++ final.emitted).eraseDups ∧
      (∀ chosen ∈ (some User.anna).toList ++ final.emitted,
        ∃! player, player ∈ final.screen.playersArray ∧ (chosen == player) = true) ∧
      ∀ player ∈ final.screen.playersArray,
        some player = some User.anna ∨ IsFound startsWith tappedTwice player := by
  have hcheck : (run? (step? startsWith) (viewDidLoad (some .anna)) tappedTwice).any
      (fun final => final.emitted.length = 2 ∧ final.screen.playersArray.length = 2) = true := by
    decide +kernel
  obtain ⟨final, hrun, hlengths⟩ := (Option.any_eq_true _ _).mp hcheck
  obtain ⟨hemitted, hplayers⟩ := of_decide_eq_true hlengths
  obtain ⟨hchosen, _, hequal, horigin⟩ := players_are_chosen hrun
  exact ⟨final, hrun, hemitted, hplayers, hchosen, hequal, horigin⟩

/--
What the button does in every state reached: it shakes the field of an empty title, asks
for two players, or sends a competition of exactly the players chosen, which is read back
from its document; and it traps only for a player without an id.
-/
theorem button_creates_competition {user : Option User}
    (hrun : run? (step? hasPrefix) (viewDidLoad user) actions = some s) (title now : String) :
    (title = "" → s.screen.tapAddCompetitionButton (some title) now = .ok .shaken) ∧
      (title ≠ "" → s.screen.playersArray.length < 2 →
        s.screen.tapAddCompetitionButton (some title) now =
          .ok (.presented "добавьте минимум 2 игрока")) ∧
      (title ≠ "" → 2 ≤ s.screen.playersArray.length →
        (∃ player ∈ s.screen.playersArray, player.id = none ∧
            (some player = user ∨ IsFound hasPrefix actions player) ∧
            s.screen.tapAddCompetitionButton (some title) now = .error .unexpectedNil) ∨
          ∃ competition sent,
            s.screen.tapAddCompetitionButton (some title) now =
              .ok (.dismissed competition sent) ∧
            competition.title = title ∧ competition.date = now ∧
            competition.players = (user.toList ++ s.emitted).eraseDups ∧
            competition.accessUsersIdArray.map some = competition.players.map User.id ∧
            competition.WellFormed competition ∧
            ∀ documentID, Database.decodeCompetition ⟨documentID, sent⟩ =
              some { competition.withoutDocId with id := some documentID }) := by
  have sound := sound_of_run hrun
  refine ⟨?_, ?_, ?_⟩
  · rintro rfl
    rfl
  · intro titled few
    have htitle : ¬ some title = some "" := fun heq => titled (Option.some.inj heq)
    rw [AddCompetitionViewController.tapAddCompetitionButton, if_neg htitle, if_pos few]
    rfl
  · intro titled enough
    by_cases hnil : ∃ player ∈ s.screen.playersArray, player.id = none
    · obtain ⟨player, membership, noId⟩ := hnil
      exact Or.inl ⟨player, membership, noId, sound.isFound membership,
        tapAddCompetitionButton_trap now titled enough membership noId⟩
    · right
      obtain ⟨competition, written, htap⟩ := exists_dismissed now titled enough
        fun player membership noId => hnil ⟨player, membership, noId⟩
      obtain ⟨sent, hwritten, htitle, hdate, hsame⟩ := Sent.of_tap htap
      exact ⟨competition, written, htap, (Option.some.inj htitle).symm, hdate,
        hsame.trans sound.players, sent.access, sent.wellFormed,
        Database.decodeCompetition_dictionary hwritten⟩

theorem button_creates_competition_tapped_twice :
    ∃ final competition sent,
      run? (step? startsWith) (viewDidLoad (some .anna)) tappedTwice = some final ∧
      final.screen.tapAddCompetitionButton (some "Cup") "2022-12-20 10:00:00 +0000" =
        .ok (.dismissed competition sent) ∧
      competition.accessUsersIdArray = ["u1", "u2"] ∧
      competition.players = ((some User.anna).toList ++ final.emitted).eraseDups := by
  have hcheck : ((run? (step? startsWith) (viewDidLoad (some .anna)) tappedTwice).any fun final =>
      2 ≤ final.screen.playersArray.length ∧
        final.screen.playersArray.map User.id = [some "u1", some "u2"]) = true := by
    decide +kernel
  obtain ⟨final, hrun, hfacts⟩ := (Option.any_eq_true _ _).mp hcheck
  obtain ⟨enough, hids⟩ := of_decide_eq_true hfacts
  have hplayers := (sound_of_run hrun).players
  rcases (button_creates_competition hrun "Cup" "2022-12-20 10:00:00 +0000").2.2 (by decide)
    enough with ⟨player, membership, noId, _⟩ | ⟨competition, sent, htap, _, _, hsame, haccess, _⟩
  · have hmember := List.mem_map_of_mem (f := User.id) membership
    rw [hids, noId] at hmember
    exact absurd hmember (by decide)
  · refine ⟨final, competition, sent, hrun, htap, ?_, hsame⟩
    rw [hsame, ← hplayers, hids] at haccess
    exact List.map_injective_iff.mpr (fun _ _ => Option.some.inj) haccess

end NewCompetition

end AnyCompetition
