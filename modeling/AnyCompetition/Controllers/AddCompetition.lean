import AnyCompetition.Database.Documents
import AnyCompetition.Library.EachOnce
import AnyCompetition.Library.GuardedRun
import AnyCompetition.Models.WellFormed

/-!
# Choosing the players of a new competition

The starting user is the first player, and each user picked from the search
results is appended unless a player is equal to it.  Users are equal by their
names, nick and requests, so the players are distinct accounts exactly when this
equality finds a player just when its account is there.
-/

namespace AnyCompetition

open Json Trap GuardedRun

/-- What a tap on the button of a new competition ends in. -/
inductive Tapped where
  | shaken
  | presented (message : String)
  | dismissed (competition : Competition) (sent : Fields)

structure AddCompetitionViewController where
  user : Option User
  playersArray : List User := []

namespace AddCompetitionViewController

def addOwnUserToPlayersArray (screen : AddCompetitionViewController) :
    AddCompetitionViewController :=
  match screen.user with
  | none => screen
  | some user => { screen with playersArray := screen.playersArray ++ [user] }

def viewDidLoad (user : Option User) : AddCompetitionViewController :=
  addOwnUserToPlayersArray { user }

/-- A user equal to a player is not appended; a message is printed instead. -/
def choosedUser (screen : AddCompetitionViewController) (user : User) :
    AddCompetitionViewController :=
  if screen.playersArray.any fun player => player == user then screen
  else { screen with playersArray := screen.playersArray ++ [user] }

def tapAddCompetitionButton (screen : AddCompetitionViewController)
    (title : Option String) (now : String) : Except Trap Tapped := do
  let playerQty := screen.playersArray.length
  if title = some "" then return .shaken
  else if playerQty < 2 then return .presented "добавьте минимум 2 игрока"
  else
    let title ← unwrap title
    let accessUserIdArray ← screen.playersArray.mapM fun player => unwrap player.id
    let competition ←
      Competition.init title playerQty now screen.playersArray accessUserIdArray
    let sent ← Database.sendCompetitionToDatabase competition
    return .dismissed competition sent

end AddCompetitionViewController

/-- A user with an id; its account is the id. -/
structure Account where
  user : User
  id : String
  hasId : user.id = some id

/-- The screen and the accounts chosen so far, with that of the starting user. -/
structure Selection where
  screen : AddCompetitionViewController
  chosen : List String

namespace Selection

def start (user : Option Account) : Selection where
  screen := .viewDidLoad (user.map Account.user)
  chosen := user.toList.map Account.id

def step? (s : Selection) (emitted : Account) : Option Selection :=
  some {
    screen := s.screen.choosedUser emitted.user
    chosen := s.chosen ++ [emitted.id] }

/-- The ids of the players, in order. -/
def ids (s : Selection) : List (Option String) :=
  s.screen.playersArray.map User.id

end Selection

/-- Every account chosen so far is exactly one player, and the competition that the
button creates is open to each once and has no match of an account against itself
off the diagonal. -/
structure DistinctPlayers (s : Selection) : Prop where
  once : EachOnce (s.chosen.map some) s.ids
  competition : ∀ title now, title ≠ "" → 2 ≤ s.screen.playersArray.length →
    ∃ competition sent table,
      s.screen.tapAddCompetitionButton (some title) now =
        .ok (.dismissed competition sent) ∧
      competition.accessUsersIdArray.Nodup ∧
      (∀ id ∈ s.chosen, id ∈ competition.accessUsersIdArray) ∧
      competition.competitionTable = some table ∧
      ∀ i j played, i ≠ j → table.match? i j = some played →
        played.player1.id ≠ played.player2.id

/-- The emitted user equals a player exactly when a player has its account. -/
def FoundByAccount (s : Selection) (emitted : Account) : Prop :=
  (∃ player ∈ s.screen.playersArray, player == emitted.user) ↔
    ∃ player ∈ s.screen.playersArray, player.id = some emitted.id

namespace Selection

variable {s t : Selection} {emitted : Account}

/-- Every player is an account chosen before. -/
def Known (s : Selection) : Prop :=
  ∀ id ∈ s.ids, id ∈ s.chosen.map some

theorem ids_start (user : Option Account) :
    (start user).ids = (start user).chosen.map some := by
  cases user with
  | none => rfl
  | some account =>
      change [account.user.id] = [some account.id]
      rw [account.hasId]

theorem known_start (user : Option Account) : (start user).Known := by
  rw [Known, ids_start]
  exact fun _ membership => membership

theorem once_start (user : Option Account) :
    EachOnce ((start user).chosen.map some) (start user).ids := by
  rw [ids_start]
  refine EachOnce.of_nodup ?_ fun _ membership => membership
  cases user with
  | none => exact List.nodup_nil
  | some account => exact List.nodup_singleton _

/-- The two outcomes of choosing a user. -/
theorem step_cases (hstep : s.step? emitted = some t) :
    t.chosen = s.chosen ++ [emitted.id] ∧
      ((∃ player ∈ s.screen.playersArray, player == emitted.user) ∧ t.ids = s.ids ∨
        (¬ ∃ player ∈ s.screen.playersArray, player == emitted.user) ∧
          t.ids = s.ids ++ [some emitted.id]) := by
  cases hstep
  refine ⟨rfl, ?_⟩
  rw [← List.any_eq_true, ids, ids, AddCompetitionViewController.choosedUser]
  split
  · rename_i found
    exact .inl ⟨found, rfl⟩
  · rename_i missing
    refine .inr ⟨missing, ?_⟩
    rw [List.map_append, List.map_singleton, emitted.hasId]

theorem Known.step (known : s.Known) (hstep : s.step? emitted = some t) : t.Known := by
  obtain ⟨hchosen, houtcome⟩ := step_cases hstep
  rw [Known, hchosen, List.map_append, List.map_singleton]
  rcases houtcome with ⟨_, hids⟩ | ⟨_, hids⟩
  · rw [hids]
    exact fun id membership => List.mem_append_left _ (known id membership)
  · rw [hids]
    intro id membership
    rcases List.mem_append.mp membership with before | last
    · exact List.mem_append_left _ (known id before)
    · exact List.mem_append_right _ last

/-- Choosing a user keeps every account exactly once when it meets the guard, and
only then. -/
theorem once_step_iff (known : s.Known) (once : EachOnce (s.chosen.map some) s.ids)
    (hstep : s.step? emitted = some t) :
    EachOnce (t.chosen.map some) t.ids ↔ FoundByAccount s emitted := by
  obtain ⟨hchosen, houtcome⟩ := step_cases hstep
  have hnodup := once.nodup known
  have hpresent : (∃ player ∈ s.screen.playersArray, player.id = some emitted.id) ↔
      some emitted.id ∈ s.ids :=
    List.mem_map.symm
  rw [hchosen, List.map_append, List.map_singleton, FoundByAccount, hpresent]
  rcases houtcome with ⟨found, hids⟩ | ⟨missing, hids⟩
  · rw [hids, once.expect_iff hnodup, iff_true_left found]
  · rw [hids, EachOnce.append_iff _ _ hnodup, iff_false_left missing]
    constructor
    · exact And.left
    · exact fun hnew => ⟨hnew, fun other membership _ => once.mem membership⟩

theorem Known.isSome_id (known : s.Known) :
    ∀ player ∈ s.screen.playersArray, player.id.isSome := by
  intro player membership
  obtain ⟨id, _, heq⟩ := List.mem_map.mp (known player.id (List.mem_map_of_mem membership))
  rw [← heq, Option.isSome_some]

/-- With a title and two players the button creates and sends a competition. -/
theorem tapAddCompetitionButton_eq (known : s.Known) {title : String} (now : String)
    (titled : title ≠ "") (enough : 2 ≤ s.screen.playersArray.length) :
    ∃ sent table, CompetitionTable.init s.screen.playersArray = .ok table ∧
      s.screen.tapAddCompetitionButton (some title) now = .ok (.dismissed
        { title
          qtyPlayers := s.screen.playersArray.length
          date := now
          accessUsersIdArray := s.screen.playersArray.filterMap User.id
          players := s.screen.playersArray
          competitionTable := some table } sent) := by
  have hnonempty : s.screen.playersArray ≠ [] := by
    intro hempty
    rw [hempty] at enough
    cases enough
  obtain ⟨table, htable⟩ : ∃ table, CompetitionTable.init s.screen.playersArray = .ok table :=
    ⟨_, CompetitionTable.init_eq hnonempty⟩
  have htitle : ¬ some title = some "" := fun heq => titled (Option.some.inj heq)
  have hids := mapM_unwrap User.id known.isSome_id
  have hcreated := Competition.init_eq htable title s.screen.playersArray.length now
    (s.screen.playersArray.filterMap User.id)
  obtain ⟨sent, hsent⟩ := Database.exists_dictionary {
    title
    qtyPlayers := s.screen.playersArray.length
    date := now
    accessUsersIdArray := s.screen.playersArray.filterMap User.id
    players := s.screen.playersArray
    competitionTable := some table } rfl
  rw [← Database.sendCompetitionToDatabase_eq] at hsent
  refine ⟨sent, table, htable, ?_⟩
  rw [AddCompetitionViewController.tapAddCompetitionButton, if_neg htitle,
    if_neg (by omega), hids, unwrap_some]
  simp only [bind, Except.bind, hcreated, hsent]
  rfl

/-- Players that are all distinct accounts give a competition of distinct players. -/
theorem distinctPlayers_of_once (known : s.Known)
    (once : EachOnce (s.chosen.map some) s.ids) : DistinctPlayers s := by
  have hnodup := once.nodup known
  refine ⟨once, fun title now titled enough => ?_⟩
  obtain ⟨sent, table, htable, htap⟩ := tapAddCompetitionButton_eq known now titled enough
  refine ⟨_, sent, table, htap, ?_, ?_, rfl, ?_⟩
  · refine (List.pairwise_map.mp hnodup).filterMap User.id ?_
    rintro first second hne id hfirst _ hsecond rfl
    exact hne (hfirst.trans hsecond.symm)
  · intro id hid
    obtain ⟨player, hplayer, heq⟩ :=
      List.mem_map.mp (once.mem (List.mem_map_of_mem (f := some) hid))
    exact List.mem_filterMap.mpr ⟨player, hplayer, heq⟩
  · intro i j played hne hfound hsame
    rw [CompetitionTable.match?_init htable] at hfound
    obtain ⟨player, hplayer, hmap⟩ := Option.bind_eq_some_iff.mp hfound
    obtain ⟨opponent, hopponent, rfl⟩ := Option.map_eq_some_iff.mp hmap
    have hi : i < s.ids.length := by
      rw [ids, List.length_map]
      exact (List.getElem?_eq_some_iff.mp hplayer).1
    have hids : s.ids[i]? = s.ids[j]? := by
      rw [ids, List.getElem?_map, List.getElem?_map, hplayer, hopponent]
      exact congrArg some hsame
    exact hne ((List.getElem?_inj hi hnodup).mp hids)

end Selection

/-! ## Users with one name -/

def namesake (id : String) (requests : List AddFriendNotification) : User :=
  { User.anna with docId := none, id := some id, notificationArray := requests }

def namesakeAccount (id : String) (requests : List AddFriendNotification) : Account :=
  ⟨namesake id requests, id, rfl⟩

/-- The starting user is asked by a user with the same name and another id. -/
def request : AddFriendNotification :=
  ⟨"2022-11-17 10:00:00 +0000", namesake "u2" []⟩

/--
Throughout a run every account chosen so far is exactly one player, and the created
competition is of distinct players, if and only if each chosen user of the run equals
a player exactly when its account is a player.
-/
theorem distinctPlayers_throughout_iff (user : Option Account) (emitted : List Account) :
    Throughout Selection.step? DistinctPlayers (.start user) emitted ↔
      Along Selection.step? FoundByAccount (.start user) emitted := by
  refine throughout_iff_along Selection.Known ?_ ?_ (Selection.known_start user)
    (Selection.distinctPlayers_of_once (Selection.known_start user)
      (Selection.once_start user))
  · intro s t account known _ _ hstep
    exact known.step hstep
  · intro s t account known distinct hstep
    have hiff := Selection.once_step_iff known distinct.once hstep
    exact ⟨fun next => hiff.mp next.once, fun guard =>
      Selection.distinctPlayers_of_once (known.step hstep) (hiff.mpr guard)⟩

/-- An account with the same names as a player is not added, and a player whose
requests have changed is added twice. -/
theorem namesake_is_merged_or_split :
    (∃ final, run? Selection.step? (.start (some (namesakeAccount "u1" [])))
        [namesakeAccount "u2" []] = some final ∧
      final.ids = [some "u1"] ∧ ¬ DistinctPlayers final) ∧
    ∃ final, run? Selection.step? (.start (some (namesakeAccount "u1" [])))
        [namesakeAccount "u1" [request]] = some final ∧
      final.ids = [some "u1", some "u1"] ∧ ¬ DistinctPlayers final := by
  refine ⟨⟨_, rfl, by decide +kernel, fun distinct => ?_⟩,
    ⟨_, rfl, by decide +kernel, fun distinct => ?_⟩⟩
  · have honce := distinct.once (some "u2") (by decide +kernel)
    revert honce
    decide +kernel
  · have honce := distinct.once (some "u1") (by decide +kernel)
    revert honce
    decide +kernel

end AnyCompetition
