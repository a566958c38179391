import AnyCompetition.Library.GuardedRun
import Mathlib.Data.List.Induction

/-!
# What has happened in a run

An event describes an action by the actions before it and by the state it is taken in.
An invariant of the states may speak of the events of the run so far, since what has
happened stays so.
-/

namespace AnyCompetition.GuardedRun

universe u v

variable {State : Type u} {Action : Type v}

/-- One of the actions of a run is such an event. -/
def Happened (step? : State → Action → Option State) (initial : State)
    (event : List Action → State → Action → Prop) (actions : List Action) : Prop :=
  ∃ front action rest before, actions = front ++ action :: rest ∧
    run? step? initial front = some before ∧ event front before action

variable {step? : State → Action → Option State} {initial : State}
variable {event : List Action → State → Action → Prop}

/-- The last action is an event when it is one in the state before it. -/
theorem Happened.last {front : List Action} {before : State} {action : Action}
    (hfront : run? step? initial front = some before) (now : event front before action) :
    Happened step? initial event (front ++ [action]) :=
  ⟨front, action, [], before, rfl, hfront, now⟩

theorem Happened.append {actions : List Action} (happened : Happened step? initial event actions)
    (later : List Action) : Happened step? initial event (actions ++ later) := by
  obtain ⟨front, action, rest, before, rfl, hfront, hevent⟩ := happened
  refine ⟨front, action, rest ++ later, before, ?_, hfront, hevent⟩
  rw [List.append_assoc, List.cons_append]

/-- A property of the actions taken and the state reached that every step of this run
preserves holds at its end. -/
theorem run?_prefix_invariant {Inv : List Action → State → Prop} (start : Inv [] initial)
    {actions : List Action}
    (preserved : ∀ {front rest : List Action} {state next : State} {action : Action},
      actions = front ++ action :: rest → run? step? initial front = some state →
        Inv front state → step? state action = some next → Inv (front ++ [action]) next)
    {last : State} (hrun : run? step? initial actions = some last) : Inv actions last := by
  have hprefix : ∀ front rest state, actions = front ++ rest →
      run? step? initial front = some state → Inv front state := by
    intro front
    induction front using List.reverseRecOn with
    | nil =>
        intro rest state _ hfront
        cases hfront
        exact start
    | append_singleton front action ih =>
        intro rest next hactions hnext
        rw [List.append_assoc, List.singleton_append] at hactions
        rw [run?_append] at hnext
        obtain ⟨state, hfront, hstep⟩ := Option.bind_eq_some_iff.mp hnext
        rw [run?_singleton] at hstep
        exact preserved hactions hfront (ih _ state hactions hfront) hstep
  exact hprefix actions [] last (List.append_nil actions).symm hrun

/-- A property of the actions taken and the state reached that every step of a run
preserves holds at its end. -/
theorem run?_history_invariant {Inv : List Action → State → Prop} (start : Inv [] initial)
    (preserved : ∀ {front : List Action} {state next : State} {action : Action},
      run? step? initial front = some state → Inv front state →
        step? state action = some next → Inv (front ++ [action]) next)
    {actions : List Action} {last : State} (hrun : run? step? initial actions = some last) :
    Inv actions last :=
  run?_prefix_invariant start (fun _ hfront holds hstep => preserved hfront holds hstep) hrun

end AnyCompetition.GuardedRun
