import MercuryFix.RuleExpressions

/-!
# Whether an evaluation returns

Each round makes the rest of the expression shorter, with one exception.  At a
character that is neither a parenthesis nor an operator the ID of a criterion is
read, and `strtoul` moves on only if it converts something.
-/

namespace MercuryFix

open FuelledLoop

section Rounds

def RuleHead.skip (head : RuleHead) : Option (Except RuleFault (List UInt8)) :=
  match opened head.expression with
  | [] => none
  | character :: rest =>
    if character = andChar ∧ head.retv = false then some (skipForwardToOR rest)
    else if character = orChar ∧ head.retv = true then
      some (skipForwardToAND rest)
    else none

variable (context : RuleContext)

end Rounds

section Returning

variable {context : RuleContext}

theorem run_of_evaluateExpression {fuel : Nat} {expression : List UInt8}
    {result : Bool × List UInt8}
    (returns : evaluateExpression context fuel expression = .ok result) :
    run (headMove context) fuel ⟨expression, false⟩ = some (.ok result.1) := by
  rw [evaluateExpression, evaluateLoop_eq] at returns
  cases runs : run (headMove context) fuel ⟨expression, false⟩ with
  | none =>
    rw [runs] at returns
    cases returns
  | some left =>
    rw [runs] at returns
    cases left with
    | error fault => cases returns
    | ok value =>
      cases returns
      rfl

end Returning

end MercuryFix
