import AnyCompetition.Library.RunHistory

/-!
# Signing in and out

The start screen, the screens of a login and the tab bar replace each other at the root of
the window.  A sign-in is answered later, maybe more than once and when another screen is
at the root.  The user defaults keep the id of the user, which the screens of the tab bar
read when they are loaded.
-/

namespace AnyCompetition.Navigation

open GuardedRun

/-- What a tap on the login button ends in. -/
inductive LoginTapped where
  | ignored
  | shaken
  | signIn (mail pass : String)
  deriving DecidableEq

structure LoginViewController where
  mailTextField : Option String := some ""
  passTextField : Option String := some ""
  isLoading : Bool := false
  /-- The message of the alert last presented. -/
  alert : Option String := none
  deriving DecidableEq

/-- A sign-in needs a mail and a password. -/
def LoginViewController.tapLoginButton (screen : LoginViewController) : LoginTapped :=
  match screen.mailTextField, screen.passTextField with
  | some mail, some pass => if mail ≠ "" ∧ pass ≠ "" then .signIn mail pass else .shaken
  | _, _ => .ignored

/-- The ids that the two screens of a tab bar have asked for when they were loaded. -/
structure CustomTabBar where
  competitions : Option String
  /-- The profile is loaded when its tab is selected first. -/
  profile : Option (Option String) := none
  deriving DecidableEq

inductive Root where
  | startAnimation
  | login (index : Nat)
  | tabBar (bar : CustomTabBar)
  deriving DecidableEq

/-- A call of `signIn`, with the screen that its completion is to change. -/
structure SignIn where
  login : Nat
  mail : String
  pass : String
  deriving DecidableEq

/-- An answer to a call of `signIn`. -/
inductive SignInResult where
  | failed (message : String)
  | authorized (uid : Option String)
  deriving DecidableEq

structure Session where
  /-- The user defaults under `uid`. -/
  uid : Option String
  root : Root := .startAnimation
  /-- The timer of the start screen has not fired. -/
  timer : Bool := true
  /-- All screens of a login since the launch. -/
  logins : List LoginViewController := []
  pending : List SignIn := []
  deriving DecidableEq

namespace Session

inductive Action where
  | fireTimer
  | edit (mail pass : String)
  | tapLoginButton
  | complete (call : Nat) (result : SignInResult)
  | selectProfile
  | tapExitButton
  | relaunch
  deriving DecidableEq

def launch (uid : Option String) : Session := { uid }

/-- A new tab bar; its first screen is loaded at once. -/
def openTabBar (s : Session) : Session :=
  { s with root := .tabBar { competitions := s.uid } }

def openLogin (s : Session) : Session :=
  { s with root := .login s.logins.length, logins := s.logins ++ [{}] }

/-- The completion of a sign-in. -/
def complete (s : Session) (login : Nat) (screen : LoginViewController) :
    SignInResult → Session
  | .failed message =>
      { s with
        logins := s.logins.set login { screen with isLoading := false, alert := some message } }
  | .authorized none => s
  | .authorized (some uid) =>
      openTabBar { s with
        uid := some uid
        logins := s.logins.set login
          { screen with isLoading := false, mailTextField := some "", passTextField := some "" } }

def step? (s : Session) : Action → Option Session
  | .fireTimer =>
      if s.timer then
        let s := { s with timer := false }
        some (if s.uid.isSome then s.openTabBar else s.openLogin)
      else none
  | .edit mail pass =>
      match s.root with
      | .login index => s.logins[index]?.map fun screen =>
          { s with
            logins := s.logins.set index
              { screen with mailTextField := some mail, passTextField := some pass } }
      | _ => none
  | .tapLoginButton =>
      match s.root with
      | .login index => s.logins[index]?.map fun screen =>
          match screen.tapLoginButton with
          | .signIn mail pass =>
              { s with
                logins := s.logins.set index { screen with isLoading := true }
                pending := s.pending ++ [⟨index, mail, pass⟩] }
          | _ => s
      | _ => none
  | .complete call result =>
      s.pending[call]?.bind fun signIn => s.logins[signIn.login]?.map fun screen =>
        complete { s with pending := s.pending.eraseIdx call } signIn.login screen result
  | .selectProfile =>
      match s.root with
      | .tabBar bar =>
          -- a screen is loaded once
          some { s with root := .tabBar { bar with profile := bar.profile.or (some s.uid) } }
      | _ => none
  | .tapExitButton =>
      match s.root with
      | .tabBar { profile := some _, .. } => some (openLogin { s with uid := none })
      | _ => none
  | .relaunch => some (launch s.uid)

/-- What is at the root agrees with the user defaults. -/
structure Sound (s : Session) : Prop where
  startAnimation : s.timer = true ↔ s.root = .startAnimation
  notYet : s.timer = true → s.pending = []
  login : ∀ index, s.root = .login index → s.uid = none
  tabBar : ∀ bar, s.root = .tabBar bar → ∃ uid, s.uid = some uid ∧
    bar.competitions = some uid ∧ ∀ asked, bar.profile = some asked → asked = some uid
  pending : ∀ signIn ∈ s.pending, signIn.mail ≠ "" ∧ signIn.pass ≠ ""

variable {s t : Session} {initial : Option String} {actions : List Action}

theorem tapLoginButton_eq_signIn {screen : LoginViewController} {mail pass : String}
    (tapped : screen.tapLoginButton = .signIn mail pass) : mail ≠ "" ∧ pass ≠ "" := by
  unfold LoginViewController.tapLoginButton at tapped
  split at tapped
  · split at tapped
    · rename_i filled
      cases tapped
      exact filled
    · cases tapped
  · cases tapped

theorem sound_launch (uid : Option String) : (launch uid).Sound where
  startAnimation := ⟨fun _ => rfl, fun _ => rfl⟩
  notYet _ := rfl
  login _ hroot := by cases hroot
  tabBar _ hroot := by cases hroot
  pending _ membership := by cases membership

/-- A new screen of a login, when nobody is signed in. -/
theorem Sound.openLogin (pending : ∀ signIn ∈ s.pending, signIn.mail ≠ "" ∧ signIn.pass ≠ "")
    (fired : s.timer = false) (signedOut : s.uid = none) : s.openLogin.Sound where
  startAnimation := by
    constructor
    · intro htimer
      rw [Session.openLogin, fired] at htimer
      cases htimer
    · intro hroot
      cases hroot
  notYet htimer := by
    rw [Session.openLogin, fired] at htimer
    cases htimer
  login _ _ := signedOut
  tabBar _ hroot := by cases hroot
  pending := pending

theorem Sound.openTabBar (pending : ∀ signIn ∈ s.pending, signIn.mail ≠ "" ∧ signIn.pass ≠ "")
    (fired : s.timer = false) {uid : String} (signedIn : s.uid = some uid) :
    s.openTabBar.Sound where
  startAnimation := by
    constructor
    · intro htimer
      rw [Session.openTabBar, fired] at htimer
      cases htimer
    · intro hroot
      cases hroot
  notYet htimer := by
    rw [Session.openTabBar, fired] at htimer
    cases htimer
  login _ hroot := by cases hroot
  tabBar bar hroot := by
    cases hroot
    refine ⟨uid, signedIn, signedIn, ?_⟩
    intro asked hasked
    cases hasked
  pending := pending

/-- A screen that is not the start screen is there after the timer. -/
theorem Sound.fired (sound : s.Sound) (hroot : s.root ≠ .startAnimation) : s.timer = false :=
  Bool.eq_false_iff.mpr fun htimer => hroot (sound.startAnimation.mp htimer)

theorem Sound.step (sound : s.Sound) {action : Action} (hstep : s.step? action = some t) :
    t.Sound := by
  cases action with
  | fireTimer =>
      rw [step?] at hstep
      split at hstep
      · cases hstep
        cases huid : s.uid with
        | none => exact Sound.openLogin sound.pending rfl rfl
        | some uid => exact Sound.openTabBar sound.pending rfl rfl
      · cases hstep
  | edit mail pass =>
      rw [step?] at hstep
      split at hstep
      · obtain ⟨screen, _, rfl⟩ := Option.map_eq_some_iff.mp hstep
        exact { sound with }
      · cases hstep
  | tapLoginButton =>
      rw [step?] at hstep
      split at hstep
      · rename_i index hroot
        obtain ⟨screen, _, rfl⟩ := Option.map_eq_some_iff.mp hstep
        split
        · rename_i mail pass tapped
          have fired := sound.fired (by rw [hroot]; exact Root.noConfusion)
          refine { sound with notYet := ?_, pending := ?_ }
          · intro htimer
            rw [fired] at htimer
            cases htimer
          · intro signIn membership
            rcases List.mem_append.mp membership with earlier | last
            · exact sound.pending signIn earlier
            · rw [List.mem_singleton.mp last]
              exact tapLoginButton_eq_signIn tapped
        · exact sound
      · cases hstep
  | complete call result =>
      obtain ⟨signIn, hcall, hrest⟩ := Option.bind_eq_some_iff.mp hstep
      obtain ⟨screen, _, rfl⟩ := Option.map_eq_some_iff.mp hrest
      have pending : ∀ other ∈ s.pending.eraseIdx call, other.mail ≠ "" ∧ other.pass ≠ "" :=
        fun other membership => sound.pending other (List.mem_of_mem_eraseIdx membership)
      have fired : s.timer = false := by
        refine Bool.eq_false_iff.mpr fun htimer => ?_
        rw [sound.notYet htimer] at hcall
        cases hcall
      have notYet : s.timer = true → s.pending.eraseIdx call = [] := by
        intro htimer
        rw [fired] at htimer
        cases htimer
      cases result with
      | failed message => exact { sound with notYet, pending }
      | authorized uid =>
          cases uid with
          | none => exact { sound with notYet, pending }
          | some uid => exact Sound.openTabBar pending fired rfl
  | selectProfile =>
      rw [step?] at hstep
      split at hstep
      · rename_i bar hroot
        cases hstep
        obtain ⟨uid, huid, hcompetitions, hprofile⟩ := sound.tabBar bar hroot
        have fired := sound.fired (by rw [hroot]; exact Root.noConfusion)
        refine { sound with startAnimation := ?_, login := ?_, tabBar := ?_ }
        · constructor
          · intro htimer
            rw [fired] at htimer
            cases htimer
          · intro hstart
            cases hstart
        · intro index hlogin
          cases hlogin
        · intro shown hshown
          cases hshown
          refine ⟨uid, huid, hcompetitions, ?_⟩
          intro asked hasked
          cases hloaded : bar.profile with
          | none =>
              rw [hloaded] at hasked
              cases hasked
              exact huid
          | some loaded =>
              rw [hloaded] at hasked
              cases hasked
              exact hprofile _ hloaded
      · cases hstep
  | tapExitButton =>
      rw [step?] at hstep
      split at hstep
      · rename_i hroot
        cases hstep
        have fired := sound.fired (by rw [hroot]; exact Root.noConfusion)
        exact Sound.openLogin sound.pending fired rfl
      · cases hstep
  | relaunch =>
      cases hstep
      exact sound_launch s.uid

/-! ## Who is signed in -/

/-- An id in the user defaults has come from an answer. -/
theorem uid_step {action : Action} (hstep : s.step? action = some t) :
    t.uid = s.uid ∨ t.uid = none ∨
      ∃ call uid, action = .complete call (.authorized (some uid)) ∧ t.uid = some uid := by
  cases action with
  | fireTimer =>
      rw [step?] at hstep
      split at hstep
      · cases hstep
        left
        split <;> rfl
      · cases hstep
  | edit mail pass =>
      rw [step?] at hstep
      split at hstep
      · obtain ⟨screen, _, rfl⟩ := Option.map_eq_some_iff.mp hstep
        exact Or.inl rfl
      · cases hstep
  | tapLoginButton =>
      rw [step?] at hstep
      split at hstep
      · obtain ⟨screen, _, rfl⟩ := Option.map_eq_some_iff.mp hstep
        left
        split <;> rfl
      · cases hstep
  | complete call result =>
      obtain ⟨signIn, _, hrest⟩ := Option.bind_eq_some_iff.mp hstep
      obtain ⟨screen, _, rfl⟩ := Option.map_eq_some_iff.mp hrest
      cases result with
      | failed message => exact Or.inl rfl
      | authorized uid =>
          cases uid with
          | none => exact Or.inl rfl
          | some uid => exact Or.inr (Or.inr ⟨call, uid, rfl, rfl⟩)
  | selectProfile =>
      rw [step?] at hstep
      split at hstep
      · cases hstep
        exact Or.inl rfl
      · cases hstep
  | tapExitButton =>
      rw [step?] at hstep
      split at hstep
      · cases hstep
        exact Or.inr (Or.inl rfl)
      · cases hstep
  | relaunch =>
      cases hstep
      exact Or.inl rfl

/-- The user signed in was so at the first launch, or was authorized in the run. -/
def Authorized (initial : Option String) (actions : List Action) (s : Session) : Prop :=
  ∀ uid, s.uid = some uid →
    initial = some uid ∨ ∃ call, .complete call (.authorized (some uid)) ∈ actions

theorem Authorized.step (authorized : Authorized initial actions s) {action : Action}
    (hstep : s.step? action = some t) : Authorized initial (actions ++ [action]) t := by
  intro uid huid
  rcases uid_step hstep with hsame | hnone | ⟨call, other, rfl, hnew⟩
  · rw [hsame] at huid
    rcases authorized uid huid with hinitial | ⟨call, hcall⟩
    · exact Or.inl hinitial
    · exact Or.inr ⟨call, List.mem_append_left _ hcall⟩
  · rw [hnone] at huid
    cases huid
  · rw [hnew] at huid
    cases huid
    exact Or.inr ⟨call, List.mem_append_right _ (List.mem_singleton_self _)⟩

theorem sound_of_run (hrun : run? step? (launch initial) actions = some s) : s.Sound :=
  run?_invariant (P := Sound) (fun sound hstep => sound.step hstep) (sound_launch initial) hrun

/--
However the taps, the answers to sign-ins and the launches are ordered: a tab bar is at the
root only for the user in the user defaults, and its screens have asked for this very
user; a login is there only when there is none; no sign-in goes out with an empty
mail or password; and the user was there at the first launch or was authorized since.
-/
theorem root_follows_uid (hrun : run? step? (launch initial) actions = some s) :
    (∀ bar, s.root = .tabBar bar → ∃ uid, s.uid = some uid ∧ bar.competitions = some uid ∧
        ∀ asked, bar.profile = some asked → asked = some uid) ∧
      (∀ index, s.root = .login index → s.uid = none) ∧
      (∀ signIn ∈ s.pending, signIn.mail ≠ "" ∧ signIn.pass ≠ "") ∧
      ∀ uid, s.uid = some uid →
        initial = some uid ∨ ∃ call, .complete call (.authorized (some uid)) ∈ actions := by
  have sound := sound_of_run hrun
  have authorized : Authorized initial actions s :=
    run?_history_invariant (fun _ huid => Or.inl huid)
      (fun _ authorized hstep => authorized.step hstep) hrun
  exact ⟨sound.tabBar, sound.login, sound.pending, authorized⟩

/-- A login is tapped twice and answered twice, with an exit in between. -/
def answeredTwice : List Action :=
  [.fireTimer, .edit "a@b.c" "secret", .tapLoginButton, .tapLoginButton,
    .complete 0 (.authorized (some "u1")), .selectProfile, .tapExitButton,
    .complete 0 (.authorized (some "u1")), .selectProfile]

theorem root_follows_uid_answered_twice :
    ∃ final bar, run? step? (launch none) answeredTwice = some final ∧
      final.root = .tabBar bar ∧ bar.competitions = some "u1" ∧
      (∃ uid, final.uid = some uid ∧ bar.competitions = some uid ∧
        ∀ asked, bar.profile = some asked → asked = some uid) ∧
      ∀ uid, final.uid = some uid → none = some uid ∨
        ∃ call, .complete call (.authorized (some uid)) ∈ answeredTwice := by
  have hrun : run? step? (launch none) answeredTwice =
      some {
        uid := some "u1"
        root := .tabBar ⟨some "u1", some (some "u1")⟩
        timer := false
        logins := [{}, {}] } := by
    decide +kernel
  obtain ⟨htab, _, _, hauthorized⟩ := root_follows_uid hrun
  exact ⟨_, _, hrun, rfl, rfl, htab _ rfl, hauthorized⟩

/-- No step but a tap on the login button ends the rest of one who is signed out. -/
theorem signedOut_step (signedOut : s.uid = none) (quiet : s.pending = []) {action : Action}
    (untapped : action ≠ .tapLoginButton) (hstep : s.step? action = some t) :
    t.uid = none ∧ t.pending = [] := by
  cases action with
  | fireTimer =>
      rw [step?] at hstep
      split at hstep
      · cases hstep
        split <;> exact ⟨signedOut, quiet⟩
      · cases hstep
  | edit mail pass =>
      rw [step?] at hstep
      split at hstep
      · obtain ⟨screen, _, rfl⟩ := Option.map_eq_some_iff.mp hstep
        exact ⟨signedOut, quiet⟩
      · cases hstep
  | tapLoginButton => exact absurd rfl untapped
  | complete call result =>
      obtain ⟨signIn, hcall, _⟩ := Option.bind_eq_some_iff.mp hstep
      rw [quiet] at hcall
      cases hcall
  | selectProfile =>
      rw [step?] at hstep
      split at hstep
      · cases hstep
        exact ⟨signedOut, quiet⟩
      · cases hstep
  | tapExitButton =>
      rw [step?] at hstep
      split at hstep
      · cases hstep
        exact ⟨rfl, quiet⟩
      · cases hstep
  | relaunch =>
      cases hstep
      exact ⟨signedOut, rfl⟩

/--
Once nobody is signed in and no sign-in is pending, nobody is signed in again before the login
button is tapped, also when the app is launched anew.
-/
theorem signed_out_until_login (hbefore : run? step? (launch initial) actions = some s)
    (signedOut : s.uid = none) (quiet : s.pending = []) {rest : List Action}
    (untapped : Along step? (fun _ action => action ≠ .tapLoginButton) s rest)
    (hrun : run? step? s rest = some t) : t.uid = none ∧ ∀ bar, t.root ≠ .tabBar bar := by
  have throughout : Throughout step? (fun state => state.uid = none ∧ state.pending = []) s rest :=
    throughout_of_along (fun holds hguard hstep => signedOut_step holds.1 holds.2 hguard hstep)
      ⟨signedOut, quiet⟩ untapped
  have hnone := (throughout.last hrun).1
  refine ⟨hnone, ?_⟩
  intro bar hroot
  have hwhole : run? step? (launch initial) (actions ++ rest) = some t := run?_trans hbefore hrun
  obtain ⟨uid, huid, _⟩ := (sound_of_run hwhole).tabBar bar hroot
  rw [hnone] at huid
  cases huid

/-- The app is launched again after an exit. -/
theorem signed_out_until_login_relaunched :
    ∃ final, run? step? (launch (some "u1")) [.fireTimer, .selectProfile, .tapExitButton,
        .relaunch, .fireTimer, .edit "a@b.c" "secret"] = some final ∧
      final.uid = none ∧ ∀ bar, final.root ≠ .tabBar bar := by
  have hbefore : run? step? (launch (some "u1")) [.fireTimer, .selectProfile, .tapExitButton] =
      some { uid := none, root := .login 0, timer := false, logins := [{}] } := by
    decide +kernel
  have hrun : run? step?
      { uid := none, root := .login 0, timer := false, logins := [{}] }
      [.relaunch, .fireTimer, .edit "a@b.c" "secret"] =
        some {
          uid := none
          root := .login 0
          timer := false
          logins := [{ mailTextField := some "a@b.c", passTextField := some "secret" }] } := by
    decide +kernel
  refine ⟨_, ?_, signed_out_until_login hbefore rfl rfl ?_ hrun⟩
  · exact run?_trans hbefore hrun
  · simp [Along]

/-- A second answer to the login signs the user in after the exit. -/
theorem second_answer_signs_in :
    (run? step? (launch none) (answeredTwice.take 7)).map
        (fun exited => (exited.uid, exited.root, exited.pending.length)) =
      some (none, .login 1, 1) ∧
    (run? step? (launch none) answeredTwice).map uid = some (some "u1") :=
  ⟨by decide +kernel, by decide +kernel⟩

end Session

end AnyCompetition.Navigation
