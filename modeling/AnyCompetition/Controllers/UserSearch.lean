import AnyCompetition.Library.GuardedRun
import AnyCompetition.Models.User

/-!
# Searching for users

Two screens show the users that match a text field.  Both filter the list of users
when the text changes, and neither does when the list does: the results follow the
list as long as a new one has the same matches as the old.
-/

namespace AnyCompetition

open GuardedRun

/-- The table of results; setting the users sets the number of rows. -/
structure SearchTableView where
  foundUsers : List User := []
  numberOfItems : Nat := foundUsers.length
  counted : numberOfItems = foundUsers.length := by rfl

/-- What the search of a screen is made of. -/
structure UserSearch where
  users : List User := []
  foundUsers : List User := []
  searchTable : SearchTableView := {}
  /-- `searchTable` has a superview. -/
  isSearchTableShown : Bool
  /-- The last text that `distinctUntilChanged` let through. -/
  query : Option String := none

inductive UserSearch.Action where
  /-- A text of the text field, after the throttle. -/
  | text (query : String)
  /-- A list published by `usersDatabase`. -/
  | receiveUsers (users : List User)

/-- The screens with a search. -/
inductive UserSearch.Screen where
  | addCompetitionViewController
  | findToAddUserViewController
  deriving DecidableEq

variable (hasPrefix : String → String → Bool)

/-- The closure of the filter. -/
def UserSearch.found (users : List User) (query : String) : List User :=
  users.filter fun user =>
    hasPrefix user.nick query || hasPrefix user.firstName query ||
      hasPrefix user.lastName query

variable {hasPrefix} in
theorem UserSearch.mem_found_iff {users : List User} {query : String} {user : User} :
    user ∈ found hasPrefix users query ↔ user ∈ users ∧
      (hasPrefix user.nick query || hasPrefix user.firstName query ||
        hasPrefix user.lastName query) = true :=
  List.mem_filter

/-- The results are emptied for an empty text. -/
def UserSearch.search (s : UserSearch) (query : String) : UserSearch :=
  let foundUsers := if query ≠ "" then found hasPrefix s.users query else []
  { s with foundUsers, searchTable := { foundUsers } }

/-- The table is put on the screen and taken off it. -/
def AddCompetitionViewController.setupObserver (s : UserSearch) (query : String) :
    UserSearch :=
  { s.search hasPrefix query with isSearchTableShown := query ≠ "" }

/-- The table stays on the screen. -/
def FindToAddUserViewController.setupObserverToTextField (s : UserSearch) (query : String) :
    UserSearch :=
  s.search hasPrefix query

namespace UserSearch

def observe : Screen → UserSearch → String → UserSearch
  | .addCompetitionViewController => AddCompetitionViewController.setupObserver hasPrefix
  | .findToAddUserViewController =>
      FindToAddUserViewController.setupObserverToTextField hasPrefix

/-- Both screens keep what is published. -/
def addObserverToUser (s : UserSearch) (users : List User) : UserSearch :=
  { s with users }

/-- The screen after `viewDidLoad`. -/
def viewDidLoad : Screen → UserSearch
  | .addCompetitionViewController => { isSearchTableShown := false }
  | .findToAddUserViewController => { isSearchTableShown := true }

def step? (screen : Screen) (s : UserSearch) : Action → Option UserSearch
  | .text query =>
      if s.query = some query then some s
      else some { observe hasPrefix screen s query with query := some query }
  | .receiveUsers users => some (s.addObserverToUser users)

/-- The users a search for the text is to find. -/
def matching (users : List User) (query : Option String) : List User :=
  match query with
  | none | some "" => []
  | some query => found hasPrefix users query

/-- The table shows the matches of the latest list for the latest text. -/
def ShowsMatching (s : UserSearch) : Prop :=
  s.searchTable.foundUsers = matching hasPrefix s.users s.query

/-- A new list has the same matches for the latest text as the list before it. -/
def SameMatching (s : UserSearch) : Action → Prop
  | .text _ => True
  | .receiveUsers users =>
      matching hasPrefix users s.query = matching hasPrefix s.users s.query

variable {hasPrefix} {screen : Screen} {s t : UserSearch}

theorem showsMatching_viewDidLoad (screen : Screen) :
    ShowsMatching hasPrefix (viewDidLoad screen) := by
  cases screen <;> rfl

theorem matching_of_ne_empty (hasPrefix : String → String → Bool) (users : List User)
    {query : String} (hquery : query ≠ "") :
    matching hasPrefix users (some query) = found hasPrefix users query := by
  unfold matching
  split
  · rename_i hnone
    cases hnone
  · rename_i hempty
    exact absurd (Option.some.inj hempty) hquery
  · rename_i hsome
    cases hsome
    rfl

/-- On either screen the table shows what the filter finds, and the list is kept. -/
theorem observe_eq (hasPrefix : String → String → Bool) (screen : Screen) (s : UserSearch)
    (query : String) :
    (observe hasPrefix screen s query).users = s.users ∧
      (observe hasPrefix screen s query).searchTable.foundUsers =
        matching hasPrefix s.users (some query) := by
  by_cases hquery : query = ""
  · subst hquery
    cases screen <;> exact ⟨rfl, rfl⟩
  · have hsearch : (s.search hasPrefix query).searchTable.foundUsers =
        found hasPrefix s.users query := if_pos hquery
    rw [matching_of_ne_empty hasPrefix s.users hquery]
    cases screen <;> exact ⟨rfl, hsearch⟩

theorem showsMatching_step_iff (shows : ShowsMatching hasPrefix s) {action : Action}
    (hstep : step? hasPrefix screen s action = some t) :
    ShowsMatching hasPrefix t ↔ SameMatching hasPrefix s action := by
  cases action with
  | text query =>
      refine ⟨fun _ => trivial, fun _ => ?_⟩
      by_cases hsame : s.query = some query
      · rw [step?, if_pos hsame] at hstep
        cases hstep
        exact shows
      · rw [step?, if_neg hsame] at hstep
        cases hstep
        obtain ⟨husers, hfound⟩ := observe_eq hasPrefix screen s query
        rw [ShowsMatching, husers]
        exact hfound
  | receiveUsers users =>
      cases hstep
      rw [ShowsMatching, SameMatching, ← shows]
      exact eq_comm

/--
For every run of either screen: the table shows in every state the users of the
latest list, in order, that match the latest text, and none for an empty text, if and
only if every list comes with the same matches as the list before it.
-/
theorem showsMatching_throughout_iff (hasPrefix : String → String → Bool) (screen : Screen)
    (actions : List Action) :
    Throughout (step? hasPrefix screen) (ShowsMatching hasPrefix) (viewDidLoad screen) actions ↔
      Along (step? hasPrefix screen) (SameMatching hasPrefix) (viewDidLoad screen) actions :=
  throughout_iff_along_of_step_iff (fun shows hstep => showsMatching_step_iff shows hstep)
    (showsMatching_viewDidLoad screen) actions

/-- A prefix test for texts of the latin alphabet. -/
def startsWith (text query : String) : Bool :=
  query.toList.isPrefixOf text.toList

/-- On both screens the same text and the same list give other results when the text
comes first. -/
theorem results_depend_on_order :
    let listFirst : List Action := [.text "", .receiveUsers [.anna], .text "an"]
    let textFirst : List Action := [.text "", .text "an", .receiveUsers [.anna]]
    ∀ screen : Screen, ∃ shown missed,
      run? (step? startsWith screen) (viewDidLoad screen) listFirst = some shown ∧
      run? (step? startsWith screen) (viewDidLoad screen) textFirst = some missed ∧
      shown.users = missed.users ∧ shown.query = missed.query ∧
      shown.searchTable.foundUsers = [.anna] ∧ missed.searchTable.foundUsers = [] ∧
      ¬ ShowsMatching startsWith missed := by
  intro listFirst textFirst screen
  have hstarts : startsWith User.anna.nick "an" = true := by decide +kernel
  have hfound : matching startsWith [.anna] (some "an") = [.anna] := by
    rw [matching_of_ne_empty startsWith [.anna] (by decide)]
    exact List.filter_cons_of_pos (by rw [hstarts, Bool.true_or, Bool.true_or])
  have hshown : ∀ s : UserSearch, s.users = [.anna] →
      (observe startsWith screen s "an").searchTable.foundUsers = [.anna] := by
    intro s husers
    rw [(observe_eq startsWith screen s "an").2, husers, hfound]
  cases screen with
  | addCompetitionViewController =>
      refine ⟨_, _, rfl, rfl, rfl, rfl, hshown _ rfl, rfl, ?_⟩
      intro shows
      cases shows.trans hfound
  | findToAddUserViewController =>
      refine ⟨_, _, rfl, rfl, rfl, rfl, hshown _ rfl, rfl, ?_⟩
      intro shows
      cases shows.trans hfound

end UserSearch

end AnyCompetition
