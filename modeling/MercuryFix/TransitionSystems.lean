import Mathlib.Data.List.Basic

/-!
# Runs of partial step functions

A system takes a step for each action that is enabled in its state.  A run is
a list of actions, each of them enabled in the state that the earlier ones
lead to.
-/

namespace TransitionSystem

variable {State Action : Type*} {step : State → Action → Option State}

def run (step : State → Action → Option State) :
    State → List Action → Option State
  | state, [] => some state
  | state, action :: actions =>
    (step state action).bind fun next => run step next actions

@[simp]
theorem run_nil (state : State) : run step state [] = some state := rfl

variable {state : State} {action : Action} {actions : List Action}

theorem run_cons_eq_some {final : State} : run step state (action :: actions) = some final ↔
      ∃ next, step state action = some next ∧ run step next actions = some final :=
  Option.bind_eq_some_iff

theorem exists_run_cons {P : State → Prop} {next : State} (steps : step state action = some next)
    (continues : ∃ final, run step next actions = some final ∧ P final) :
    ∃ final, run step state (action :: actions) = some final ∧ P final := by
  obtain ⟨final, runs, holds⟩ := continues
  exact ⟨final, run_cons_eq_some.mpr ⟨next, steps, runs⟩, holds⟩

theorem run_append (state : State) (first second : List Action) : run step state (first ++ second) =
      (run step state first).bind fun next => run step next second := by
  induction first generalizing state with
  | nil => rfl
  | cons action first induction =>
    rw [List.cons_append, run, run]
    cases step state action with
    | none => rfl
    | some next => exact induction next

theorem run_append_eq_some {final : State} {first second : List Action} :
    run step state (first ++ second) = some final ↔
      ∃ middle, run step state first = some middle ∧ run step middle second = some final := by
  rw [run_append]
  exact Option.bind_eq_some_iff

theorem exists_run_append {Seen Later : Type*} {seen : State → Seen} {later : State → Later}
    {view : Seen} {last : Later} {first second : List Action}
    (early : (run step state first).map seen = some view)
    (late : (run step state (first ++ second)).map later = some last) :
    ∃ middle final, run step state first = some middle ∧ seen middle = view ∧
      run step middle second = some final ∧ later final = last := by
  obtain ⟨middle, runs, shows⟩ := Option.map_eq_some_iff.mp early
  obtain ⟨final, goes, ends⟩ := Option.map_eq_some_iff.mp late
  obtain ⟨reached, same, rest⟩ := run_append_eq_some.mp goes
  cases runs.symm.trans same
  exact ⟨middle, final, runs, shows, rest, ends⟩

def Guarded (step : State → Action → Option State)
    (Guard : State → Action → Prop) (state : State) (actions : List Action) :
    Prop :=
  ∀ before action after reached, actions = before ++ action :: after →
    run step state before = some reached → Guard reached action

variable {Guard : State → Action → Prop}

theorem Guarded.head (guarded : Guarded step Guard state (action :: actions)) :
    Guard state action :=
  guarded [] action actions state rfl rfl

theorem Guarded.tail {next : State} (guarded : Guarded step Guard state (action :: actions))
    (steps : step state action = some next) :
    Guarded step Guard next actions := by
  intro before later after reached splits runs
  apply guarded (action :: before) later after reached
  · rw [splits]
    rfl
  · exact run_cons_eq_some.mpr ⟨next, steps, runs⟩

theorem guarded_nil : Guarded step Guard state [] := by
  intro before action after reached splits
  cases before <;> cases splits

theorem guarded_cons : Guarded step Guard state (action :: actions) ↔
      Guard state action ∧ ∀ next ∈ step state action, Guarded step Guard next actions := by
  constructor
  · intro guarded
    exact ⟨guarded.head, fun next steps => guarded.tail steps⟩
  · rintro ⟨first, rest⟩ before later after reached splits runs
    cases before with
    | nil =>
      cases splits
      cases runs
      exact first
    | cons head before =>
      cases splits
      obtain ⟨next, steps, continues⟩ := run_cons_eq_some.mp runs
      exact rest next steps before later after reached rfl continues

/-- A run can be checked step by step. -/
instance decidableGuarded {Guard : State → Action → Prop}
    [∀ state action, Decidable (Guard state action)] :
    ∀ (state : State) (actions : List Action), Decidable (Guarded step Guard state actions)
  | _, [] => isTrue guarded_nil
  | state, action :: actions =>
    match steps : step state action with
    | none => decidable_of_iff (Guard state action) (by
        simp [guarded_cons, steps])
    | some next =>
      have : Decidable (Guarded step Guard next actions) := decidableGuarded next actions
      decidable_of_iff
        (Guard state action ∧ Guarded step Guard next actions) (by
          simp [guarded_cons, steps])

theorem guarded_of_forall (each : ∀ action ∈ actions, ∀ reached, Guard reached action) :
    Guarded step Guard state actions := by
  rintro before action after reached rfl _
  exact each action (by simp) reached

theorem run_invariant_guarded (Holds : State → Prop) (Guard : State → Action → Prop)
    (preserved : ∀ {state action next}, Holds state → Guard state action →
      step state action = some next → Holds next)
    {final : State} (start : Holds state) (guarded : Guarded step Guard state actions)
    (runs : run step state actions = some final) : Holds final := by
  induction actions generalizing state with
  | nil =>
    cases runs
    exact start
  | cons action actions induction =>
    obtain ⟨next, steps, rest⟩ := run_cons_eq_some.mp runs
    exact induction (preserved start guarded.head steps) (guarded.tail steps) rest

theorem run_invariant (Holds : State → Prop)
    (preserved : ∀ {state action next}, Holds state → step state action = some next → Holds next)
    {final : State} (start : Holds state) (runs : run step state actions = some final) :
    Holds final := by
  have guarded : Guarded step (fun _ _ => True) state actions :=
    guarded_of_forall fun _ _ _ => trivial
  exact run_invariant_guarded Holds (fun _ _ => True)
    (fun holds _ steps => preserved holds steps) start guarded runs

end TransitionSystem
