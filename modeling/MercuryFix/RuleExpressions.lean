import MercuryFix.FuelledLoops
import MercuryFix.RuleCriteria

/-!
# Expressions of the rule engine

`evaluate_expression` walks over an expression with one truth value.  It skips what
cannot change the value, and it calls itself at an opening parenthesis.  A call
never returns at a closing parenthesis but only at the terminator, and a caller has
nothing left to do then.  So the calls make one loop over the expression.

`beyond` stands for a read behind the terminator.
-/

namespace MercuryFix

def andChar : UInt8 := 0x2B
def orChar : UInt8 := 0x7C
def parStart : UInt8 := 0x28
def parEnd : UInt8 := 0x29

section Skips

/-- The rounds of `skip_forward_over_block`.  The case of a closing parenthesis
falls through to that of an opening one. -/
def overBlock : UInt32 → List UInt8 → List UInt8
  | _, [] => []
  | parCnt, character :: rest =>
    if character = parEnd then
      if parCnt - 1 = 0 then character :: rest
      else overBlock (parCnt - 1 + 1) rest
    else if character = parStart then overBlock (parCnt + 1) rest
    else overBlock parCnt rest

def skipForwardOverBlock (expression : List UInt8) : List UInt8 := overBlock 1 expression.tail

def skipForwardLoop (operator : UInt8) :
    Nat → List UInt8 → Except RuleFault (List UInt8)
  | 0, _ => .error .unfinished
  | _ + 1, [] => .ok []
  | fuel + 1, character :: rest =>
    if character = operator then .ok (character :: rest)
    else
      let place :=
        if character = parStart then skipForwardOverBlock (character :: rest)
        else character :: rest
      match place with
      -- A block without its end is left at the terminator, which is passed now.
      | [] => .error .beyond
      | _ :: rest => skipForwardLoop operator fuel rest

/-- The two skips, by the operator that they look for. -/
def skipForwardTo (operator : UInt8) (expression : List UInt8) :
    Except RuleFault (List UInt8) :=
  skipForwardLoop operator (expression.length + 1) expression

def skipForwardToOR := skipForwardTo orChar

def skipForwardToAND := skipForwardTo andChar

theorem length_overBlock_le (parCnt : UInt32) (text : List UInt8) :
    (overBlock parCnt text).length ≤ text.length := by
  induction text generalizing parCnt with
  | nil => rfl
  | cons character rest induction =>
    rw [overBlock]
    split_ifs
    · exact le_rfl
    · exact (induction _).trans (Nat.le_succ _)
    · exact (induction _).trans (Nat.le_succ _)
    · exact (induction _).trans (Nat.le_succ _)

theorem skipForwardLoop_enough (operator : UInt8) {fuel more : Nat}
    {expression : List UInt8} (enough : expression.length < fuel) (le : fuel ≤ more) :
    skipForwardLoop operator more expression = skipForwardLoop operator fuel expression := by
  induction fuel generalizing more expression with
  | zero => omega
  | succ fuel induction =>
    obtain ⟨more, rfl⟩ : ∃ less, more = less + 1 := ⟨more - 1, by omega⟩
    cases expression with
    | nil => rfl
    | cons character rest =>
      rw [List.length_cons] at enough
      rw [skipForwardLoop, skipForwardLoop]
      split
      · rfl
      · by_cases block : character = parStart
        · rw [if_pos block, skipForwardOverBlock, List.tail_cons]
          have shorter := length_overBlock_le 1 rest
          cases stops : overBlock 1 rest with
          | nil => rfl
          | cons last behind =>
            rw [stops, List.length_cons] at shorter
            exact induction (by omega) (by omega)
        · rw [if_neg block]
          exact induction (by omega) (by omega)

theorem skipForwardTo_here (operator : UInt8) (rest : List UInt8) :
    skipForwardTo operator (operator :: rest) = .ok (operator :: rest) := by
  rw [skipForwardTo, skipForwardLoop, if_pos rfl]

theorem skipForwardTo_cons {operator character : UInt8} (rest : List UInt8)
    (other : character ≠ operator) (notStart : character ≠ parStart) :
    skipForwardTo operator (character :: rest) = skipForwardTo operator rest := by
  rw [skipForwardTo, skipForwardLoop, if_neg other, if_neg notStart]
  exact skipForwardLoop_enough operator (Nat.lt_succ_self _) le_rfl

theorem skipForwardTo_plain {operator : UInt8} {text : List UInt8}
    (notOperator : operator ∉ text) (notStart : parStart ∉ text) (rest : List UInt8) :
    skipForwardTo operator (text ++ rest) = skipForwardTo operator rest := by
  induction text with
  | nil => rfl
  | cons character text induction =>
    rw [List.mem_cons, not_or] at notOperator notStart
    rw [List.cons_append, skipForwardTo_cons _ (Ne.symm notOperator.1) (Ne.symm notStart.1)]
    exact induction notOperator.2 notStart.2

theorem skipForwardTo_block {operator : UInt8} (rest : List UInt8) (other : parStart ≠ operator) :
    skipForwardTo operator (parStart :: rest) = match overBlock 1 rest with
      | [] => .error .beyond
      | _ :: behind => skipForwardTo operator behind := by
  have shorter := length_overBlock_le 1 rest
  rw [skipForwardTo, skipForwardLoop, if_neg other, if_pos rfl,
    skipForwardOverBlock, List.tail_cons]
  cases stops : overBlock 1 rest with
  | nil => rfl
  | cons character behind =>
    rw [stops, List.length_cons] at shorter
    exact skipForwardLoop_enough operator (Nat.lt_succ_self _) (by
      rw [List.length_cons]
      omega)

end Skips

section Evaluation

variable (context : RuleContext)

/-- The loop of `evaluate_expression`, and its calls of itself. -/
def evaluateLoop :
    Nat → List UInt8 → Bool → Except RuleFault (Bool × List UInt8)
  | 0, _, _ => .error .unfinished
  | _ + 1, [], retv => .ok (retv, [])
  | fuel + 1, character :: rest, retv =>
    let place := if character = parStart then rest else character :: rest
    match place with
    | [] => .ok (retv, [])
    | character :: rest =>
      if character = parEnd then evaluateLoop fuel rest retv
      else if character = andChar then do
        let place ← if retv then .ok rest else skipForwardToOR rest
        let result ←
          if retv then
            if place.head? = some parStart then evaluateLoop fuel place false
            else evaluateCriteria context place
          else .ok (false, place)
        evaluateLoop fuel result.2 result.1
      else if character = orChar then
        if retv then do
          let place ← skipForwardToAND rest
          evaluateLoop fuel place retv
        else do
          let result ←
            if rest.head? = some parStart then evaluateLoop fuel rest false
            else evaluateCriteria context rest
          evaluateLoop fuel result.2 result.1
      else if character = parStart then do
        let result ← evaluateLoop fuel (character :: rest) false
        evaluateLoop fuel result.2 result.1
      else do
        let result ← evaluateCriteria context (character :: rest)
        evaluateLoop fuel result.2 result.1

def evaluateExpression (fuel : Nat) (expression : List UInt8) :
    Except RuleFault (Bool × List UInt8) :=
  evaluateLoop context fuel expression false

end Evaluation

section Heads

/-- Where the loop stands, and its value. -/
structure RuleHead where
  expression : List UInt8
  retv : Bool

/-- The expression behind an opening parenthesis, which each round passes first. -/
def opened : List UInt8 → List UInt8
  | [] => []
  | character :: rest =>
    if character = parStart then rest else character :: rest

variable (context : RuleContext)

def criteriaMove (place : List UInt8) : Except RuleFault Bool ⊕ RuleHead :=
  match evaluateCriteria context place with
  | .error fault => .inl (.error fault)
  | .ok result => .inr ⟨result.2, result.1⟩

def skipMove (skipped : Except RuleFault (List UInt8)) (retv : Bool) :
    Except RuleFault Bool ⊕ RuleHead :=
  match skipped with
  | .error fault => .inl (.error fault)
  | .ok place => .inr ⟨place, retv⟩

def termMove (place : List UInt8) : Except RuleFault Bool ⊕ RuleHead :=
  if place.head? = some parStart then .inr ⟨place, false⟩
  else criteriaMove context place

/-- A round of the loop, in which a call of `evaluate_expression` is one more
round. -/
def headMove (head : RuleHead) : Except RuleFault Bool ⊕ RuleHead :=
  match opened head.expression with
  | [] => .inl (.ok head.retv)
  | character :: rest =>
    if character = parEnd then .inr ⟨rest, head.retv⟩
    else if character = andChar then
      if head.retv then termMove context rest
      else skipMove (skipForwardToOR rest) false
    else if character = orChar then
      if head.retv then skipMove (skipForwardToAND rest) true
      else termMove context rest
    else if character = parStart then .inr ⟨character :: rest, false⟩
    else criteriaMove context (character :: rest)

/-- What `evaluate_expression` makes of a result of the loop. -/
def leaving : Option (Except RuleFault Bool) → Except RuleFault (Bool × List UInt8)
  | none => .error .unfinished
  | some (.error fault) => .error fault
  | some (.ok retv) => .ok (retv, [])

/-- The rounds behind a move. -/
def goOn (fuel : Nat) :
    Except RuleFault Bool ⊕ RuleHead → Except RuleFault (Bool × List UInt8)
  | .inl result => leaving (some result)
  | .inr head => evaluateLoop context fuel head.expression head.retv

variable {context}

/-- The characters that a round has a case for. -/
def ruleCharacters : List UInt8 := [parEnd, andChar, orChar, parStart]

theorem headMove_plain {head : RuleHead} {character : UInt8} {rest : List UInt8}
    (opens : opened head.expression = character :: rest) (plain : character ∉ ruleCharacters) :
    headMove context head = criteriaMove context (character :: rest) := by
  simp only [ruleCharacters, List.mem_cons, List.not_mem_nil, or_false, not_or] at plain
  simp only [headMove, opens]
  rw [if_neg plain.1, if_neg plain.2.1, if_neg plain.2.2.1, if_neg plain.2.2.2]

theorem bind_criteria (fuel : Nat) (place : List UInt8) :
    (evaluateCriteria context place).bind (fun result =>
        evaluateLoop context fuel result.2 result.1) =
      goOn context fuel (criteriaMove context place) := by
  rw [criteriaMove]
  cases evaluateCriteria context place <;> rfl

theorem bind_skip (fuel : Nat) (skipped : Except RuleFault (List UInt8)) (retv : Bool) :
    skipped.bind (fun place => evaluateLoop context fuel place retv) =
      goOn context fuel (skipMove skipped retv) := by
  cases skipped <;> rfl

theorem bind_call {fuel : Nat} {place : List UInt8} {retv : Bool}
    {result : Option (Except RuleFault Bool)}
    (calls : evaluateLoop context fuel place retv = leaving result)
    (positive : result.isSome → 0 < fuel) :
    (evaluateLoop context fuel place retv).bind (fun result =>
        evaluateLoop context fuel result.2 result.1) =
      evaluateLoop context fuel place retv := by
  rw [calls]
  cases result with
  | none => rfl
  | some result =>
    obtain ⟨fuel, rfl⟩ : ∃ less, fuel = less + 1 := ⟨fuel - 1, by have := positive rfl; omega⟩
    cases result <;> rfl

theorem evaluateLoop_eq (fuel : Nat) (expression : List UInt8) (retv : Bool) :
    evaluateLoop context fuel expression retv =
      leaving (FuelledLoop.run (headMove context) fuel ⟨expression, retv⟩) := by
  induction fuel generalizing expression retv with
  | zero => rfl
  | succ fuel induction =>
    have goes : leaving (FuelledLoop.run (headMove context) (fuel + 1)
        ⟨expression, retv⟩) = goOn context fuel (headMove context ⟨expression, retv⟩) := by
      rw [FuelledLoop.run]
      cases headMove context ⟨expression, retv⟩ with
      | inl result => rfl
      | inr next => exact (induction next.expression next.retv).symm
    have called (place : List UInt8) : (evaluateLoop context fuel place
        false).bind (fun result => evaluateLoop context fuel result.2 result.1) =
          evaluateLoop context fuel place false := by
      apply bind_call (induction place false)
      cases fuel with
      | zero => simp [FuelledLoop.run]
      | succ fuel => exact fun _ => Nat.succ_pos fuel
    have term (place : List UInt8) : (if place.head? = some parStart then
            (evaluateLoop context fuel place false).bind fun result =>
              evaluateLoop context fuel result.2 result.1
          else
            (evaluateCriteria context place).bind fun result =>
              evaluateLoop context fuel result.2 result.1) =
          goOn context fuel (termMove context place) := by
      rw [termMove]
      split
      · exact called place
      · exact bind_criteria fuel place
    rw [goes, headMove]
    cases expression with
    | nil => rfl
    | cons character rest =>
      rw [evaluateLoop, opened]
      dsimp only
      cases (if character = parStart then rest else character :: rest) with
      | nil => rfl
      | cons character rest =>
        dsimp only
        by_cases ends : character = parEnd
        · rw [if_pos ends, if_pos ends]
          rfl
        rw [if_neg ends, if_neg ends]
        by_cases ands : character = andChar
        · rw [if_pos ands, if_pos ands]
          cases retv with
          | true => exact term rest
          | false => exact bind_skip fuel (skipForwardToOR rest) false
        rw [if_neg ands, if_neg ands]
        by_cases ors : character = orChar
        · rw [if_pos ors, if_pos ors]
          cases retv with
          | true => exact bind_skip fuel (skipForwardToAND rest) true
          | false => exact term rest
        rw [if_neg ors, if_neg ors]
        by_cases starts : character = parStart
        · rw [if_pos starts, if_pos starts]
          exact called (character :: rest)
        · rw [if_neg starts, if_neg starts]
          exact bind_criteria fuel (character :: rest)

end Heads

end MercuryFix
