import AnyCompetition.Library.GuardedRun
import Mathlib.Logic.Function.Basic

/-!
# The custom tab bar

Each of the two tabs moves the one bar down when it pushes a screen without the bar
and up when its root appears again, and remembers this in a flag of its own.  A tap
on an item selects a tab only when its click animation ends.  The bar is where the
selected tab needs it as long as no tab is left in a screen without the bar.
-/

namespace AnyCompetition.Navigation

open GuardedRun

inductive Tab where
  | competitions
  | profile
  deriving DecidableEq

def Tab.other : Tab → Tab
  | .competitions => .profile
  | .profile => .competitions

theorem Tab.eq_or_eq_other (tab selected : Tab) : tab = selected ∨ tab = selected.other := by
  cases tab <;> cases selected <;> simp [Tab.other]

theorem Tab.other_ne (tab : Tab) : tab.other ≠ tab := by
  cases tab <;> simp [Tab.other]

@[simp]
theorem Tab.other_other (tab : Tab) : tab.other.other = tab := by
  cases tab <;> rfl

/-- The screens pushed above the roots. -/
inductive PushedScreen where
  | competition
  | notifications
  | notification
  | settings
  | friends
  | friend
  | findToAddUser
  deriving DecidableEq

/-- The screens pushed after the bar was hidden, and those above them. -/
def PushedScreen.isWithoutBar : PushedScreen → Bool
  | .competition | .notifications | .notification | .settings => true
  | .friends | .friend | .findToAddUser => false

/-- The screen on top has no bar; the root has one. -/
def withoutBar : List PushedScreen → Bool
  | [] => false
  | top :: _ => top.isWithoutBar

structure CustomTabBarController where
  selectedIndex : Tab := .competitions
  /-- `selectedItemIndex` of the bar. -/
  selectedItemIndex : Tab := .competitions
  /-- The screens above the root of each tab, the top first. -/
  pushed : Tab → List PushedScreen := fun _ => []
  isCustomBarHiden : Tab → Bool := fun _ => false
  /-- The vertical translation of the bar. -/
  offset : Int := 0
  /-- The items whose click animation is running. -/
  clicks : List Tab := []

namespace CustomTabBarController

/-! ## The bar -/

def translatedBy (s : CustomTabBarController) (y : Int) : CustomTabBarController :=
  { s with offset := s.offset + y }

def hideCustomBarFromCompetitions (s : CustomTabBarController) : CustomTabBarController :=
  s.translatedBy 100

def showCustomBarFromCompetitions (s : CustomTabBarController) : CustomTabBarController :=
  s.translatedBy (-100)

def hideCustomBarFromProfile (s : CustomTabBarController) : CustomTabBarController :=
  s.translatedBy 100

def showCustomBarFromProfile (s : CustomTabBarController) : CustomTabBarController :=
  s.translatedBy (-100)

def hideCustomBar (s : CustomTabBarController) : Tab → CustomTabBarController
  | .competitions => s.hideCustomBarFromCompetitions
  | .profile => s.hideCustomBarFromProfile

def showCustomBar (s : CustomTabBarController) : Tab → CustomTabBarController
  | .competitions => s.showCustomBarFromCompetitions
  | .profile => s.showCustomBarFromProfile

def toggle (s : CustomTabBarController) (tab : Tab) : CustomTabBarController :=
  { s with
    isCustomBarHiden := Function.update s.isCustomBarHiden tab (!s.isCustomBarHiden tab) }

def push (s : CustomTabBarController) (tab : Tab) (screen : PushedScreen) :
    CustomTabBarController :=
  { s with pushed := Function.update s.pushed tab (screen :: s.pushed tab) }

/-- `viewWillAppear` of the root of a tab. -/
def viewWillAppear (s : CustomTabBarController) (tab : Tab) : CustomTabBarController :=
  if s.isCustomBarHiden tab then (s.showCustomBar tab).toggle tab else s

/-- The bar is hidden, and a screen pushed above the root. -/
def pushWithoutBar (s : CustomTabBarController) (tab : Tab) (screen : PushedScreen) :
    CustomTabBarController :=
  if !s.isCustomBarHiden tab then ((s.hideCustomBar tab).toggle tab).push tab screen else s

/-- The tab bar shows the controller of the item; a root that comes up appears. -/
def selectItem (s : CustomTabBarController) (tab : Tab) : CustomTabBarController :=
  let selected := { s with selectedIndex := tab, selectedItemIndex := tab }
  if s.selectedIndex ≠ tab ∧ s.pushed tab = [] then selected.viewWillAppear tab else selected

/-! ## Events -/

/-- What opens a screen. -/
inductive Opening where
  | pressCompetition
  | presentNotificationController
  | presentSettingsController
  | tapFriendButton
  | tapAddFriendButton
  /-- `tapToCell` of the profile and of the screens of users. -/
  | tapToCell
  /-- `tapToCell` of the notifications. -/
  | tapToNotification
  deriving DecidableEq

inductive Action where
  | tapItem (tab : Tab)
  | completeClick (click : Nat)
  | opens (opening : Opening)
  | back
  deriving DecidableEq

def pressCompetition (s : CustomTabBarController) : CustomTabBarController :=
  s.pushWithoutBar .competitions .competition

def presentNotificationController (s : CustomTabBarController) : CustomTabBarController :=
  s.pushWithoutBar .profile .notifications

def presentSettingsController (s : CustomTabBarController) : CustomTabBarController :=
  s.pushWithoutBar .profile .settings

/-- What a screen on top of a tab has for an opening. -/
def opener? : Tab → List PushedScreen → Opening →
    Option (CustomTabBarController → CustomTabBarController)
  | .competitions, [], .pressCompetition => some pressCompetition
  | .profile, [], .presentNotificationController => some presentNotificationController
  | .profile, [], .presentSettingsController => some presentSettingsController
  | .profile, [], .tapFriendButton => some fun s => s.push .profile .friends
  | .profile, [], .tapAddFriendButton => some fun s => s.push .profile .findToAddUser
  | .profile, [], .tapToCell => some fun s => s.push .profile .friend
  | .profile, .friends :: _, .tapToCell => some fun s => s.push .profile .friend
  | .profile, .findToAddUser :: _, .tapToCell => some fun s => s.push .profile .friend
  | .profile, .notifications :: _, .tapToNotification =>
      some fun s => s.push .profile .notification
  | _, _, _ => none

/-- The screen on top is left; a root that comes up appears. -/
def back? (s : CustomTabBarController) : Option CustomTabBarController :=
  match s.pushed s.selectedIndex with
  | [] => none
  | _ :: rest =>
      let popped := { s with pushed := Function.update s.pushed s.selectedIndex rest }
      some (if rest = [] then popped.viewWillAppear s.selectedIndex else popped)

def step? (s : CustomTabBarController) : Action → Option CustomTabBarController
  | .tapItem tab =>
      -- below the screen the bar cannot be tapped
      if s.offset = 0 then some { s with clicks := s.clicks ++ [tab] } else none
  | .completeClick click =>
      s.clicks[click]?.map fun tab =>
        { s with clicks := s.clicks.eraseIdx click }.selectItem tab
  | .opens opening =>
      (opener? s.selectedIndex (s.pushed s.selectedIndex) opening).map fun opener => opener s
  | .back => s.back?

/-- The bar is on screen at the root, off screen where it is hidden, and nowhere
else. -/
structure BarFollows (s : CustomTabBarController) : Prop where
  root : s.pushed s.selectedIndex = [] → s.offset = 0
  hidden : withoutBar (s.pushed s.selectedIndex) = true → s.offset = 100
  only : s.offset = 0 ∨ s.offset = 100

/-- A screen above the root that has the bar. -/
def ShowsFriendScreen (s : CustomTabBarController) (tab : Tab) : Prop :=
  s.pushed tab ≠ [] ∧ withoutBar (s.pushed tab) = false

/-- A click selects the other tab, and the root of a tab comes up, only while the tab that is
not shown then is not in a screen without the bar. -/
def LeavesWithBar (s : CustomTabBarController) : Action → Prop
  | .completeClick click => ∀ tab, s.clicks[click]? = some tab → tab ≠ s.selectedIndex →
      s.ShowsFriendScreen tab ∨ withoutBar (s.pushed s.selectedIndex) = false
  | .back => ∀ screen, s.pushed s.selectedIndex = [screen] → screen.isWithoutBar = false →
      withoutBar (s.pushed s.selectedIndex.other) = false
  | _ => True

/-! ## The invariant -/

/-- How far a tab has moved the bar. -/
def moved (s : CustomTabBarController) (tab : Tab) : Int :=
  if withoutBar (s.pushed tab) then 100 else 0

/-- In every run the flag of a tab says that it shows a screen without the bar, and the
bar has been moved once for each such tab. -/
structure Sound (s : CustomTabBarController) : Prop where
  flag : ∀ tab, s.isCustomBarHiden tab = withoutBar (s.pushed tab)
  alike : ∀ tab, ∀ screen ∈ s.pushed tab, screen.isWithoutBar = withoutBar (s.pushed tab)
  offset : s.offset = s.moved .competitions + s.moved .profile

variable {s t : CustomTabBarController}

/-- Both tabs move the bar alike. -/
theorem hideCustomBar_eq (s : CustomTabBarController) (tab : Tab) :
    s.hideCustomBar tab = s.translatedBy 100 := by
  cases tab <;> rfl

theorem showCustomBar_eq (s : CustomTabBarController) (tab : Tab) :
    s.showCustomBar tab = s.translatedBy (-100) := by
  cases tab <;> rfl

theorem moved_add_moved_other (s : CustomTabBarController) (tab : Tab) :
    s.moved tab + s.moved tab.other = s.moved .competitions + s.moved .profile := by
  cases tab with
  | competitions => rfl
  | profile => exact Int.add_comm _ _

/-- Only a screen without the bar on the tab not shown can displace it, and only at
the root or over another such screen. -/
theorem Sound.barFollows_iff (sound : Sound s) :
    BarFollows s ↔ s.ShowsFriendScreen s.selectedIndex ∨
      withoutBar (s.pushed s.selectedIndex.other) = false := by
  have hoffset := sound.offset
  rw [← moved_add_moved_other s s.selectedIndex, moved, moved] at hoffset
  constructor
  · intro follows
    cases hother : withoutBar (s.pushed s.selectedIndex.other) with
    | false => exact .inr rfl
    | true =>
        left
        rw [hother, if_pos rfl] at hoffset
        constructor
        · intro hroot
          have hzero := follows.root hroot
          rw [hroot] at hoffset
          simp only [withoutBar, Bool.false_eq_true, if_false] at hoffset
          omega
        · rw [← Bool.not_eq_true]
          intro hhidden
          have hhundred := follows.hidden hhidden
          rw [hhidden, if_pos rfl] at hoffset
          omega
  · rintro (⟨pushed, friend⟩ | hother)
    · rw [friend] at hoffset
      refine ⟨fun hroot => absurd hroot pushed, fun hhidden => ?_, ?_⟩
      · rw [friend] at hhidden
        cases hhidden
      · cases hother : withoutBar (s.pushed s.selectedIndex.other) <;>
          simp [hoffset, hother]
    · rw [hother] at hoffset
      refine ⟨fun hroot => ?_, fun hhidden => ?_, ?_⟩
      · rw [hoffset, hroot]
        rfl
      · rw [hoffset, hhidden]
        rfl
      · cases hselected : withoutBar (s.pushed s.selectedIndex) <;>
          simp [hoffset, hselected]

/-- Other screens above the root of the selected tab, with the bar where they need it. -/
def replace (s : CustomTabBarController) (screens : List PushedScreen) :
    CustomTabBarController :=
  { s with
    pushed := Function.update s.pushed s.selectedIndex screens
    isCustomBarHiden := Function.update s.isCustomBarHiden s.selectedIndex (withoutBar screens)
    offset := s.offset - s.moved s.selectedIndex + if withoutBar screens then 100 else 0 }

theorem replace_pushed_selected (s : CustomTabBarController) (screens : List PushedScreen) :
    (s.replace screens).pushed s.selectedIndex = screens :=
  Function.update_self ..

theorem replace_pushed_other (s : CustomTabBarController) (screens : List PushedScreen) :
    (s.replace screens).pushed s.selectedIndex.other = s.pushed s.selectedIndex.other :=
  Function.update_of_ne (Tab.other_ne _) ..

/-- The bar is where it was when the screens on top are alike. -/
theorem Sound.replace_of_alike (sound : Sound s) {screens : List PushedScreen}
    (alike : withoutBar screens = withoutBar (s.pushed s.selectedIndex)) :
    s.replace screens =
      { s with pushed := Function.update s.pushed s.selectedIndex screens } := by
  rw [replace, moved, alike, Int.sub_add_cancel, ← sound.flag, Function.update_eq_self]

/-- What a step does, from a state in order. -/
inductive Stepped (s : CustomTabBarController) : Action → CustomTabBarController → Prop where
  | tapItem {tab : Tab} : Stepped s (.tapItem tab) { s with clicks := s.clicks ++ [tab] }
  | completeClick {click : Nat} {tab : Tab} (hclick : s.clicks[click]? = some tab) :
      Stepped s (.completeClick click) { s with
        selectedIndex := tab
        selectedItemIndex := tab
        clicks := s.clicks.eraseIdx click }
  | opens {opening : Opening} {screen : PushedScreen}
      (alike : s.pushed s.selectedIndex = [] ∨
        screen.isWithoutBar = withoutBar (s.pushed s.selectedIndex)) :
      Stepped s (.opens opening) (s.replace (screen :: s.pushed s.selectedIndex))
  | back {screen : PushedScreen} {rest : List PushedScreen}
      (hpushed : s.pushed s.selectedIndex = screen :: rest) :
      Stepped s .back (s.replace rest)

/-- The screen below the top is like it. -/
theorem Sound.alike_below (sound : Sound s) {tab : Tab} {screen next : PushedScreen}
    {rest : List PushedScreen} (hpushed : s.pushed tab = screen :: next :: rest) :
    next.isWithoutBar = withoutBar (s.pushed tab) := by
  apply sound.alike tab next
  rw [hpushed]
  exact List.mem_cons_of_mem _ List.mem_cons_self

theorem Sound.isCustomBarHiden_of_root (sound : Sound s) {tab : Tab}
    (root : s.pushed tab = []) : s.isCustomBarHiden tab = false := by
  rw [sound.flag, root]
  rfl

/-- At the root a screen without the bar is pushed and the bar moved down. -/
theorem Stepped.of_pushWithoutBar (sound : Sound s) {tab : Tab} {opening : Opening}
    {screen : PushedScreen} (hselected : s.selectedIndex = tab) (root : s.pushed tab = [])
    (hscreen : screen.isWithoutBar = true) :
    Stepped s (.opens opening) (s.pushWithoutBar tab screen) := by
  subst hselected
  have hflag := sound.isCustomBarHiden_of_root root
  have hreplace : s.pushWithoutBar s.selectedIndex screen =
      s.replace (screen :: s.pushed s.selectedIndex) := by
    rw [pushWithoutBar, hflag, if_pos (by decide), hideCustomBar_eq]
    simp [replace, moved, push, toggle, translatedBy, hflag, root, withoutBar, hscreen]
  rw [hreplace]
  exact .opens (.inl root)

theorem Stepped.of_push (sound : Sound s) {tab : Tab} {opening : Opening}
    {screen : PushedScreen} (hselected : s.selectedIndex = tab)
    (alike : screen.isWithoutBar = withoutBar (s.pushed tab)) :
    Stepped s (.opens opening) (s.push tab screen) := by
  subst hselected
  have hreplace : s.replace (screen :: s.pushed s.selectedIndex) = s.push s.selectedIndex screen :=
    sound.replace_of_alike alike
  rw [← hreplace]
  exact .opens (.inr alike)

/-- Leaving the last screen moves the bar up if that screen was without it. -/
theorem Sound.viewWillAppear_of_popped (sound : Sound s) :
    { s with pushed := Function.update s.pushed s.selectedIndex [] }.viewWillAppear
      s.selectedIndex = s.replace [] := by
  have hflag := sound.flag s.selectedIndex
  rw [viewWillAppear]
  cases hiden : s.isCustomBarHiden s.selectedIndex with
  | true =>
      rw [hiden] at hflag
      have hmoved : s.moved s.selectedIndex = 100 := if_pos hflag.symm
      rw [if_pos rfl, showCustomBar_eq]
      simp [replace, toggle, translatedBy, hiden, hmoved, withoutBar, Int.sub_eq_add_neg]
  | false =>
      have alike : withoutBar [] = withoutBar (s.pushed s.selectedIndex) := hiden.symm.trans hflag
      rw [if_neg Bool.false_ne_true, sound.replace_of_alike alike]

theorem stepped_of_step (sound : Sound s) {action : Action} (hstep : s.step? action = some t) :
    Stepped s action t := by
  cases action with
  | tapItem tab =>
      rw [step?] at hstep
      split at hstep
      · cases hstep
        exact .tapItem
      · cases hstep
  | completeClick click =>
      obtain ⟨tab, hclick, rfl⟩ := Option.map_eq_some_iff.mp hstep
      rw [selectItem]
      split
      · rename_i comesUp
        have hflag := sound.isCustomBarHiden_of_root comesUp.2
        rw [viewWillAppear, if_neg (by simp [hflag])]
        exact .completeClick hclick
      · exact .completeClick hclick
  | opens opening =>
      obtain ⟨opener, hopener, rfl⟩ := Option.map_eq_some_iff.mp hstep
      generalize hpushed : s.pushed s.selectedIndex = pushed at hopener
      generalize hselected : s.selectedIndex = selected at hopener
      rw [hselected] at hpushed
      unfold opener? at hopener
      split at hopener
      case h_10 => cases hopener
      all_goals cases hopener
      case h_1 | h_2 | h_3 => exact .of_pushWithoutBar sound hselected hpushed rfl
      all_goals exact .of_push sound hselected (by rw [hpushed]; rfl)
  | back =>
      rw [step?, back?] at hstep
      split at hstep
      · cases hstep
      · rename_i screen rest hpushed
        cases hstep
        cases rest with
        | nil =>
            rw [if_pos rfl, sound.viewWillAppear_of_popped]
            exact .back hpushed
        | cons next rest =>
            have hreplace : s.replace (next :: rest) = _ :=
              sound.replace_of_alike (sound.alike_below hpushed)
            rw [if_neg (List.cons_ne_nil _ _), ← hreplace]
            exact .back hpushed

/-- Screens alike among each other keep a state in order. -/
theorem Sound.replace (sound : Sound s) {screens : List PushedScreen}
    (alike : ∀ screen ∈ screens, screen.isWithoutBar = withoutBar screens) :
    Sound (s.replace screens) := by
  have hoffset := sound.offset
  rw [← moved_add_moved_other s s.selectedIndex] at hoffset
  refine ⟨?_, ?_, ?_⟩
  · intro tab
    rcases Tab.eq_or_eq_other tab s.selectedIndex with rfl | rfl
    · rw [replace_pushed_selected]
      exact Function.update_self ..
    · rw [replace_pushed_other, ← sound.flag]
      exact Function.update_of_ne (Tab.other_ne _) ..
  · intro tab
    rcases Tab.eq_or_eq_other tab s.selectedIndex with rfl | rfl
    · rw [replace_pushed_selected]
      exact alike
    · rw [replace_pushed_other]
      exact sound.alike _
  · rw [← moved_add_moved_other _ s.selectedIndex, moved, moved, replace_pushed_selected,
      replace_pushed_other, ← moved]
    simp only [CustomTabBarController.replace]
    omega

/-- The steps of every run keep a state in order. -/
theorem Sound.step (sound : Sound s) {action : Action} (hstep : s.step? action = some t) :
    Sound t := by
  cases stepped_of_step sound hstep with
  | tapItem => exact ⟨sound.flag, sound.alike, sound.offset⟩
  | completeClick => exact ⟨sound.flag, sound.alike, sound.offset⟩
  | opens first =>
      apply sound.replace
      rintro screen membership
      rcases List.mem_cons.mp membership with rfl | below
      · rfl
      · rcases first with root | first
        · rw [root] at below
          cases below
        · exact (sound.alike _ screen below).trans first.symm
  | @back screen rest hpushed =>
      have halike := sound.alike s.selectedIndex
      rw [hpushed] at halike
      apply sound.replace
      intro below membership
      have hbelow := halike below (List.mem_cons_of_mem _ membership)
      cases rest with
      | nil => cases membership
      | cons next rest =>
          have hnext := halike next (List.mem_cons_of_mem _ List.mem_cons_self)
          exact hbelow.trans hnext.symm

/-- Where the bar is needed after the screens of the selected tab are replaced. -/
theorem barFollows_replace_iff {screens : List PushedScreen}
    (sound : Sound (s.replace screens)) :
    BarFollows (s.replace screens) ↔ (screens ≠ [] ∧ withoutBar screens = false) ∨
      withoutBar (s.pushed s.selectedIndex.other) = false := by
  have hselected : (s.replace screens).selectedIndex = s.selectedIndex := rfl
  rw [sound.barFollows_iff, ShowsFriendScreen, hselected, replace_pushed_selected,
    replace_pushed_other]

theorem barFollows_step_iff (sound : Sound s) (follows : BarFollows s) {action : Action}
    (hstep : s.step? action = some t) : BarFollows t ↔ LeavesWithBar s action := by
  have hbefore := sound.barFollows_iff.mp follows
  have after := sound.step hstep
  cases stepped_of_step sound hstep with
  | tapItem =>
      exact ⟨fun _ => trivial, fun _ => ⟨follows.root, follows.hidden, follows.only⟩⟩
  | @completeClick click tab hclick =>
      rw [after.barFollows_iff, LeavesWithBar]
      change s.ShowsFriendScreen tab ∨ withoutBar (s.pushed tab.other) = false ↔ _
      rcases Tab.eq_or_eq_other tab s.selectedIndex with rfl | rfl
      · refine ⟨fun _ tab htab hne => ?_, fun _ => hbefore⟩
        rw [hclick] at htab
        exact absurd (Option.some.inj htab).symm hne
      · rw [Tab.other_other]
        constructor
        · intro leaves tab htab _
          rw [hclick] at htab
          cases htab
          exact leaves
        · exact fun guard => guard _ hclick (Tab.other_ne _)
  | @opens opening screen first =>
      rw [barFollows_replace_iff after]
      refine ⟨fun _ => trivial, fun _ => ?_⟩
      rcases hbefore with ⟨pushed, friend⟩ | hother
      · rcases first with root | first
        · exact absurd root pushed
        · exact .inl ⟨List.cons_ne_nil _ _, first.trans friend⟩
      · exact .inr hother
  | @back screen rest hpushed =>
      rw [barFollows_replace_iff after, LeavesWithBar, hpushed]
      rw [ShowsFriendScreen, hpushed] at hbefore
      cases rest with
      | nil =>
          constructor
          · rintro (⟨hne, _⟩ | hother)
            · exact absurd rfl hne
            · exact fun _ _ _ => hother
          · intro guard
            right
            rcases hbefore with ⟨_, friend⟩ | hother
            · exact guard screen rfl friend
            · exact hother
      | cons next rest =>
          have halike := sound.alike_below hpushed
          rw [hpushed] at halike
          constructor
          · intro _ single hsingle
            cases hsingle
          · intro _
            rcases hbefore with ⟨_, friend⟩ | hother
            · exact .inl ⟨List.cons_ne_nil _ _, halike.trans friend⟩
            · exact .inr hother

theorem sound_initial : Sound {} :=
  ⟨fun _ => rfl, fun _ => nofun, rfl⟩

/--
For every run of taps on items, ends of clicks, openings and ways back: the bar is in
every state on screen at the root of the selected tab, off screen where it was hidden,
and nowhere else, if and only if every click ends and every root comes up while the
tab that is not shown then is not in a screen without the bar.
-/
theorem barFollows_throughout_iff (actions : List Action) :
    Throughout step? BarFollows {} actions ↔ Along step? LeavesWithBar {} actions :=
  throughout_iff_along Sound (fun sound _ _ hstep => sound.step hstep)
    (fun sound follows hstep => barFollows_step_iff sound follows hstep) sound_initial
    ⟨fun _ => rfl, nofun, .inl rfl⟩

/-- A competition is opened while the click on the other item is running: the profile comes
up without the bar; its notifications move the bar twice as far, and the other tab can
no longer be selected. -/
theorem bar_stays_hidden :
    ∃ profile notifications,
      run? step? {} [.tapItem .profile, .opens .pressCompetition, .completeClick 0] =
        some profile ∧
      profile.selectedIndex = .profile ∧ profile.pushed .profile = [] ∧
      profile.offset = 100 ∧ profile.step? (.tapItem .competitions) = none ∧
      profile.step? (.opens .presentNotificationController) = some notifications ∧
      notifications.offset = 200 ∧ ¬ BarFollows profile ∧ ¬ BarFollows notifications := by
  refine ⟨_, _, rfl, rfl, rfl, rfl, rfl, rfl, rfl, ?_, ?_⟩
  · intro follows
    cases follows.root rfl
  · intro follows
    cases follows.hidden rfl

end CustomTabBarController

end AnyCompetition.Navigation
