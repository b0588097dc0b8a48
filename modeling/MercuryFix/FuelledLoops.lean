import Mathlib.Order.Basic
import Mathlib.Tactic.Common

/-!
# Loops that may not end

A loop is a function that moves from one state to the next or leaves with a result.
Whether it leaves is a question about all the states that it visits.
-/

namespace FuelledLoop

variable {State Result : Type*} {move : State → Result ⊕ State}

def run (move : State → Result ⊕ State) : Nat → State → Option Result
  | 0, _ => none
  | fuel + 1, state =>
    match move state with
    | .inl result => some result
    | .inr next => run move fuel next

variable {state : State}

theorem run_of_inl {result : Result} (leaves : move state = .inl result) (fuel : Nat) :
    run move (fuel + 1) state = some result := by
  rw [run, leaves]

theorem run_of_inr {next : State} (moves : move state = .inr next) (fuel : Nat) :
    run move (fuel + 1) state = run move fuel next := by
  rw [run, moves]

theorem run_mono {result : Result} {fuel more : Nat} (le : fuel ≤ more)
    (returns : run move fuel state = some result) :
    run move more state = some result := by
  induction fuel generalizing state more with
  | zero => cases returns
  | succ fuel induction =>
    obtain ⟨more, rfl⟩ : ∃ less, more = less + 1 := ⟨more - 1, by omega⟩
    cases moves : move state with
    | inl left =>
      rw [run_of_inl moves] at returns ⊢
      exact returns
    | inr next =>
      rw [run_of_inr moves] at returns ⊢
      exact induction (by omega) returns

def Leaves (move : State → Result ⊕ State) (state : State) (result : Result) : Prop :=
  ∃ fuel, run move fuel state = some result

theorem Leaves.of_inl {result : Result} (leaves : move state = .inl result) :
    Leaves move state result :=
  ⟨1, run_of_inl leaves 0⟩

theorem Leaves.of_inr {next : State} {result : Result} (moves : move state = .inr next)
    (leaves : Leaves move next result) :
    Leaves move state result := by
  obtain ⟨fuel, returns⟩ := leaves
  exact ⟨fuel + 1, (run_of_inr moves fuel).trans returns⟩

theorem Leaves.of_eq {other : State} {result : Result} (leaves : Leaves move other result)
    (same : move state = move other) :
    Leaves move state result := by
  obtain ⟨fuel, returns⟩ := leaves
  cases fuel with
  | zero => cases returns
  | succ fuel =>
    refine ⟨fuel + 1, ?_⟩
    rw [run, same]
    exact returns

end FuelledLoop
