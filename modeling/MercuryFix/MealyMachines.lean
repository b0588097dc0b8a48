import Mathlib.Data.List.Basic

/-!
# Machines that emit a list of outputs on every input

A machine is given by its step function alone.  Running it over a list of
inputs threads the state and concatenates the outputs in order.  The rules
below are the ones a verification of a streaming program needs: runs over
concatenated inputs, invariants of whole runs, the step an output came from,
and the replacement of single inputs by whole chunks of them.
-/

namespace MealyMachine

variable {State Input Output Chunk : Type*}

/-- Feed a list of inputs to a machine, collecting its outputs in order. -/
def run (step : State → Input → State × List Output) (state : State) :
    List Input → State × List Output
  | [] => (state, [])
  | input :: rest =>
    let next := step state input
    let tail := run step next.1 rest
    (tail.1, next.2 ++ tail.2)

variable {step : State → Input → State × List Output}

@[simp]
theorem run_nil (state : State) : run step state [] = (state, []) := rfl

theorem run_cons (state : State) (input : Input) (rest : List Input) :
    run step state (input :: rest) = ((run step (step state input).1 rest).1,
        (step state input).2 ++ (run step (step state input).1 rest).2) :=
  rfl

theorem run_append (state : State) (first second : List Input) : run step state (first ++ second) =
      ((run step (run step state first).1 second).1,
        (run step state first).2 ++ (run step (run step state first).1 second).2) := by
  induction first generalizing state with
  | nil => simp
  | cons input first induction =>
    rw [List.cons_append, run_cons, induction, run_cons]
    simp [List.append_assoc]

theorem run_append_state (state : State) (first second : List Input) :
    (run step state (first ++ second)).1 = (run step (run step state first).1 second).1 := by
  rw [run_append]

theorem run_append_outputs (state : State) (first second : List Input) :
    (run step state (first ++ second)).2 =
      (run step state first).2 ++ (run step (run step state first).1 second).2 := by
  rw [run_append]

theorem run_concat_state (state : State) (first : List Input) (input : Input) :
    (run step state (first ++ [input])).1 = (step (run step state first).1 input).1 := by
  rw [run_append_state]
  rfl

variable {state : State}

theorem run_invariant {Holds : State → Prop}
    (preserved : ∀ state input, Holds state → Holds (step state input).1) (start : Holds state)
    (inputs : List Input) :
    Holds (run step state inputs).1 := by
  induction inputs generalizing state with
  | nil => exact start
  | cons input inputs induction =>
    exact induction (preserved state input start)

variable {inputs : List Input}

/-- A property kept by every step that meets a condition is kept by every run
whose steps all meet it. -/
theorem run_invariant_guarded {Holds : State → Prop} {Guard : State → Input → Prop}
    (preserved : ∀ state input, Holds state → Guard state input → Holds (step state input).1)
    (start : Holds state)
    (guarded : ∀ before input after, inputs = before ++ input :: after →
      Guard (run step state before).1 input) :
    Holds (run step state inputs).1 := by
  induction inputs generalizing state with
  | nil => exact start
  | cons input inputs induction =>
    have first := guarded [] input inputs rfl
    apply induction (preserved state input start first)
    intro before next after splits
    exact guarded (input :: before) next after (by rw [splits]; rfl)

/-- Two machines that agree on every step that meets a condition agree on every
run whose steps all meet it. -/
theorem run_congr_guarded {other : State → Input → State × List Output} {Holds : State → Prop}
    {Guard : State → Input → Prop}
    (agree : ∀ state input, Holds state → Guard state input → other state input = step state input)
    (preserved : ∀ state input, Holds state → Guard state input → Holds (step state input).1)
    (start : Holds state)
    (guarded : ∀ before input after, inputs = before ++ input :: after →
      Guard (run step state before).1 input) :
    run other state inputs = run step state inputs := by
  induction inputs generalizing state with
  | nil => rfl
  | cons input inputs induction =>
    have first := guarded [] input inputs rfl
    have rest := induction (preserved state input start first) (by
      intro before next after splits
      exact guarded (input :: before) next after (by rw [splits]; rfl))
    rw [run_cons, run_cons, agree state input start first, rest]

theorem run_silent {Holds : State → Prop}
    (silent : ∀ state input, Holds state → Holds (step state input).1 ∧ (step state input).2 = [])
    (start : Holds state) (inputs : List Input) :
    (run step state inputs).2 = [] := by
  induction inputs generalizing state with
  | nil => rfl
  | cons input inputs induction =>
    obtain ⟨next, nothing⟩ := silent state input start
    rw [run_cons, nothing, induction next, List.append_nil]

theorem forall_split {Guard : List Input → Input → Prop}
    (each : ∀ index : Fin inputs.length, Guard (inputs.take index) (inputs.get index)) :
    ∀ before input after, inputs = before ++ input :: after → Guard before input := by
  rintro before input after rfl
  have here := each ⟨before.length, by simp⟩
  simpa using here

theorem exists_step_of_mem_run {output : Output} (emitted : output ∈ (run step state inputs).2) :
    ∃ before input after, inputs = before ++ input :: after ∧
      output ∈ (step (run step state before).1 input).2 := by
  induction inputs generalizing state with
  | nil => simp at emitted
  | cons input inputs induction =>
    rw [run_cons] at emitted
    rcases List.mem_append.mp emitted with now | later
    · exact ⟨[], input, inputs, rfl, now⟩
    · obtain ⟨before, next, after, splits, emits⟩ := induction later
      refine ⟨input :: before, next, after, ?_, ?_⟩
      · rw [splits, List.cons_append]
      · rw [run_cons]
        exact emits

/-- When each chunk is handled like the run over its inputs, up to what
`view` shows of the states that satisfy an invariant, a run over chunks is
the run over all their inputs. -/
theorem run_chunks {Full : Type*} {chunkStep : Full → Chunk → Full × List Output}
    {inputsOf : Chunk → List Input} {view : Full → State} {Holds : Full → Prop}
    (preserved : ∀ full chunk, Holds full → Holds (chunkStep full chunk).1)
    (agrees : ∀ full chunk, Holds full → (view (chunkStep full chunk).1, (chunkStep full chunk).2) =
        run step (view full) (inputsOf chunk))
    {full : Full} (start : Holds full) (chunks : List Chunk) :
    (view (run chunkStep full chunks).1, (run chunkStep full chunks).2) =
      run step (view full) (chunks.flatMap inputsOf) := by
  induction chunks generalizing full with
  | nil => rfl
  | cons chunk chunks induction =>
    have head := agrees full chunk start
    have tail := induction (preserved full chunk start)
    rw [List.flatMap_cons, run_append, ← head, ← tail, run_cons]

end MealyMachine
