import Mathlib.Data.List.Basic

/-!
# Guarded runs of a partial step function

A system is given by a partial step function: an action that is not enabled in
a state has no successor.  A guard is a condition on the state before a step
and on the action taken.  The rules below carry a property along a run from
what one step does, and compare the runs that keep a property with the runs
all of whose steps meet a guard.
-/

namespace AnyCompetition.GuardedRun

universe u v

variable {State : Type u} {Action : Type v}

/-- Take a list of actions one after the other. -/
def run? (step? : State → Action → Option State) (state : State)
    (actions : List Action) : Option State :=
  actions.foldlM step? state

/-- Every step of the run meets the guard in the state before it. -/
def Along (step? : State → Action → Option State)
    (Guard : State → Action → Prop) : State → List Action → Prop
  | _, [] => True
  | state, action :: rest =>
      ∀ next, step? state action = some next →
        Guard state action ∧ Along step? Guard next rest

/-- Every state of the run, the first and the last included, has the property. -/
def Throughout (step? : State → Action → Option State)
    (P : State → Prop) : State → List Action → Prop
  | state, [] => P state
  | state, action :: rest =>
      P state ∧ ∀ next, step? state action = some next →
        Throughout step? P next rest

variable {step? : State → Action → Option State}
variable {Guard : State → Action → Prop} {P : State → Prop}

/-- A run of at least one action is its first step and a run from there. -/
theorem run?_cons_eq_some_iff {state last : State} {action : Action}
    {rest : List Action} :
    run? step? state (action :: rest) = some last ↔
      ∃ next, step? state action = some next ∧ run? step? next rest = some last :=
  Option.bind_eq_some_iff

@[simp]
theorem run?_singleton (state : State) (action : Action) :
    run? step? state [action] = step? state action :=
  Option.bind_fun_some (step? state action)

/-- A run of two lists of actions is a run of the first and one of the second from there. -/
theorem run?_append (state : State) (first second : List Action) :
    run? step? state (first ++ second) =
      (run? step? state first).bind fun next => run? step? next second :=
  List.foldlM_append

/-- A run goes on from the state that another one reaches. -/
theorem run?_trans {state middle last : State} {first second : List Action}
    (hfirst : run? step? state first = some middle)
    (hsecond : run? step? middle second = some last) :
    run? step? state (first ++ second) = some last := by
  rw [run?_append, hfirst]
  exact hsecond

theorem Throughout.head {state : State} {actions : List Action}
    (holds : Throughout step? P state actions) : P state := by
  cases actions with
  | nil => exact holds
  | cons action rest => exact holds.1

/-- A property of every state of a run is a property of its last state. -/
theorem Throughout.last {state last : State} {actions : List Action}
    (holds : Throughout step? P state actions)
    (hrun : run? step? state actions = some last) : P last := by
  induction actions generalizing state with
  | nil =>
      cases hrun
      exact holds
  | cons action rest ih =>
      obtain ⟨next, hstep, hrest⟩ := run?_cons_eq_some_iff.mp hrun
      exact ih (holds.2 next hstep) hrest

theorem Throughout.imp {Q : State → Prop} (implies : ∀ {state}, P state → Q state)
    {state : State} {actions : List Action} (holds : Throughout step? P state actions) :
    Throughout step? Q state actions := by
  induction actions generalizing state with
  | nil => exact implies holds
  | cons action rest ih =>
      exact ⟨implies holds.1, fun next hstep => ih (holds.2 next hstep)⟩

/-- What holds at the end of a run and not at its start has come with one of its steps. -/
theorem exists_step_of_run? {state last : State} {actions : List Action} (absent : ¬ P state)
    (hrun : run? step? state actions = some last) (holds : P last) :
    ∃ front action rest before after, actions = front ++ action :: rest ∧
      run? step? state front = some before ∧ ¬ P before ∧
      step? before action = some after ∧ P after := by
  induction actions generalizing state with
  | nil =>
      cases hrun
      exact absurd holds absent
  | cons action rest ih =>
      obtain ⟨next, hstep, hrest⟩ := run?_cons_eq_some_iff.mp hrun
      by_cases hnext : P next
      · exact ⟨[], action, rest, state, next, rfl, rfl, absent, hstep, hnext⟩
      · obtain ⟨front, later, tail, before, after, rfl, hfront, hbefore, hlater, hafter⟩ :=
          ih hnext hrest
        exact ⟨action :: front, later, tail, before, after, rfl,
          run?_cons_eq_some_iff.mpr ⟨next, hstep, hfront⟩, hbefore, hlater, hafter⟩

/-- What every guarded step preserves holds in every state of a guarded run. -/
theorem throughout_of_along
    (preserved : ∀ {state next : State} {action : Action},
      P state → Guard state action → step? state action = some next → P next)
    {state : State} {actions : List Action} (initial : P state)
    (guarded : Along step? Guard state actions) :
    Throughout step? P state actions := by
  induction actions generalizing state with
  | nil => exact initial
  | cons action rest ih =>
      refine ⟨initial, fun next hstep => ?_⟩
      obtain ⟨hguard, hrest⟩ := guarded next hstep
      exact ih (preserved initial hguard hstep) hrest

/-- A run meets a guard when its first step does and the rest of the run does. -/
theorem Along.cons {state next : State} {action : Action} {rest : List Action}
    (hstep : step? state action = some next) (guard : Guard state action)
    (later : Along step? Guard next rest) : Along step? Guard state (action :: rest) := by
  intro other hother
  rw [hstep] at hother
  cases hother
  exact ⟨guard, later⟩

/-- A step in the middle of a guarded run meets the guard. -/
theorem Along.guard {initial state next : State} {front rest : List Action} {action : Action}
    (guarded : Along step? Guard initial (front ++ action :: rest))
    (hfront : run? step? initial front = some state)
    (hstep : step? state action = some next) : Guard state action := by
  induction front generalizing initial with
  | nil =>
      cases hfront
      exact (guarded next hstep).1
  | cons earlier front ih =>
      obtain ⟨middle, hearlier, hlater⟩ := run?_cons_eq_some_iff.mp hfront
      exact ih (guarded middle hearlier).2 hlater

/-- A guarded run goes on with a step that meets the guard. -/
theorem Along.concat {initial state : State} {front : List Action} {action : Action}
    (guarded : Along step? Guard initial front) (hfront : run? step? initial front = some state)
    (guard : Guard state action) : Along step? Guard initial (front ++ [action]) := by
  induction front generalizing initial with
  | nil =>
      cases hfront
      exact fun next _ => ⟨guard, trivial⟩
  | cons earlier front ih =>
      obtain ⟨middle, hearlier, hlater⟩ := run?_cons_eq_some_iff.mp hfront
      exact Along.cons hearlier (guarded middle hearlier).1 (ih (guarded middle hearlier).2 hlater)

/-- The guard that asks for nothing is met along every run. -/
theorem along_true (state : State) (actions : List Action) :
    Along step? (fun _ _ => True) state actions := by
  induction actions generalizing state with
  | nil => trivial
  | cons action rest ih => exact fun next _ => ⟨trivial, ih next⟩

/-- What every step preserves holds in every state of a run. -/
theorem throughout_of_preserved
    (preserved : ∀ {state next : State} {action : Action},
      P state → step? state action = some next → P next)
    {state : State} (initial : P state) (actions : List Action) :
    Throughout step? P state actions :=
  throughout_of_along (fun holds _ hstep => preserved holds hstep) initial
    (along_true state actions)

/-- What every step preserves holds in the last state of a run. -/
theorem run?_invariant
    (preserved : ∀ {state next : State} {action : Action},
      P state → step? state action = some next → P next)
    {state last : State} {actions : List Action} (initial : P state)
    (hrun : run? step? state actions = some last) : P last :=
  (throughout_of_preserved preserved initial actions).last hrun

/--
Where an invariant of guarded steps makes one step keep the property exactly when
it meets the guard, a run keeps the property in all its states exactly when all its steps
meet the guard.
-/
theorem throughout_iff_along (Inv : State → Prop)
    (invariant : ∀ {state next : State} {action : Action},
      Inv state → P state → Guard state action → step? state action = some next → Inv next)
    (exact_step : ∀ {state next : State} {action : Action},
      Inv state → P state → step? state action = some next →
        (P next ↔ Guard state action))
    {state : State} {actions : List Action} (hinv : Inv state) (initial : P state) :
    Throughout step? P state actions ↔ Along step? Guard state actions := by
  induction actions generalizing state with
  | nil => exact ⟨fun _ => trivial, fun _ => initial⟩
  | cons action rest ih =>
      constructor
      · intro holds next hstep
        have hnext : P next := (holds.2 next hstep).head
        have hguard := (exact_step hinv initial hstep).mp hnext
        exact ⟨hguard, (ih (invariant hinv initial hguard hstep) hnext).mp (holds.2 next hstep)⟩
      · intro guarded
        refine ⟨initial, fun next hstep => ?_⟩
        obtain ⟨hguard, hrest⟩ := guarded next hstep
        have hnext : P next := (exact_step hinv initial hstep).mpr hguard
        exact (ih (invariant hinv initial hguard hstep) hnext).mpr hrest

/-- No invariant is needed where the property itself makes a step keep it exactly when
the step meets the guard. -/
theorem throughout_iff_along_of_step_iff
    (exact_step : ∀ {state next : State} {action : Action},
      P state → step? state action = some next → (P next ↔ Guard state action))
    {state : State} (initial : P state) (actions : List Action) :
    Throughout step? P state actions ↔ Along step? Guard state actions :=
  throughout_iff_along (fun _ => True) (fun _ _ _ _ => trivial)
    (fun _ holds hstep => exact_step holds hstep) trivial initial

end AnyCompetition.GuardedRun
