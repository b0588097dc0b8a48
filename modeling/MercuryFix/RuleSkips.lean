import MercuryFix.Brackets
import MercuryFix.RuleExpressions

/-!
# Skipping blocks

`skip_forward_over_block` counts a closing parenthesis down and, falling through,
up again.  So its counter never decreases, and a block inside of the block keeps it
from stopping at the end.
-/

namespace MercuryFix

open Brackets

theorem parStart_ne_parEnd : parStart ≠ parEnd := by
  decide

section Blocks

variable {inner : List UInt8}

theorem overBlock_plain (noStart : parStart ∉ inner) (noEnd : parEnd ∉ inner) (parCnt : UInt32)
    (rest : List UInt8) :
    overBlock parCnt (inner ++ rest) = overBlock parCnt rest := by
  induction inner with
  | nil => rfl
  | cons character inner induction =>
    rw [List.mem_cons, not_or] at noStart noEnd
    rw [List.cons_append, overBlock, if_neg (Ne.symm noEnd.1), if_neg (Ne.symm noStart.1)]
    exact induction noStart.2 noEnd.2

theorem overBlock_flat (noStart : parStart ∉ inner) (noEnd : parEnd ∉ inner) (after : List UInt8) :
    overBlock 1 (inner ++ parEnd :: after) = parEnd :: after := by
  rw [overBlock_plain noStart noEnd, overBlock, if_pos rfl]
  rfl

/-- A balanced part either ends the skip, or it leaves the counter too high for the
parenthesis behind it if it has a block. -/
theorem overBlock_balanced (balanced : Balanced parStart parEnd inner) (parCnt : UInt32)
    (rest : List UInt8) :
    rest.length < (overBlock parCnt (inner ++ rest)).length ∨
      ∃ later, overBlock parCnt (inner ++ rest) = overBlock later rest ∧
        (parStart ∉ inner → later = parCnt) ∧
        (parStart ∈ inner → later - 1 ≠ 0) := by
  induction balanced generalizing parCnt rest with
  | nil => exact .inr ⟨parCnt, rfl, fun _ => rfl, nofun⟩
  | @plain character inner notStart notEnd balanced induction =>
    rw [List.cons_append, overBlock, if_neg notEnd, if_neg notStart]
    simpa [Ne.symm notStart] using induction parCnt rest
  | @pair inside tail balanced behind inInside inBehind =>
    have opens : overBlock parCnt (parStart :: inside ++ parEnd :: tail ++ rest) =
        overBlock (parCnt + 1) (inside ++ parEnd :: (tail ++ rest)) := by
      simp [overBlock, parStart_ne_parEnd]
    rw [opens]
    rcases inInside (parCnt + 1) (parEnd :: (tail ++ rest)) with
      stops | ⟨later, goes, -, -⟩
    · left
      simp only [List.length_cons, List.length_append] at stops
      omega
    rw [goes, overBlock, if_pos rfl]
    by_cases done : later - 1 = 0
    · rw [if_pos done]
      left
      simp only [List.length_cons, List.length_append]
      omega
    rw [if_neg done]
    rcases inBehind (later - 1 + 1) rest with stops | ⟨last, passes, same, high⟩
    · exact .inl stops
    · refine .inr ⟨last, passes, by simp, fun _ => ?_⟩
      by_cases more : parStart ∈ tail
      · exact high more
      · rw [same more]
        simpa using done

theorem overBlock_nested (balanced : Balanced parStart parEnd inner) (nested : parStart ∈ inner)
    (after : List UInt8) :
    overBlock 1 (inner ++ parEnd :: after) ≠ parEnd :: after := by
  intro stops
  rcases overBlock_balanced balanced 1 (parEnd :: after) with
    early | ⟨later, goes, -, high⟩
  · rw [stops] at early
    exact lt_irrefl _ early
  · rw [goes, overBlock, if_pos rfl, if_neg (high nested)] at stops
    have shorter := length_overBlock_le (later - 1 + 1) after
    rw [stops, List.length_cons] at shorter
    omega

end Blocks

section Operators

theorem skipForwardTo_outside {expression : List UInt8}
    (balanced : Balanced parStart parEnd expression)
    (flat : ¬ Nested parStart parEnd expression) {operator : UInt8}
    (notStart : parStart ≠ operator) {before start : List UInt8}
    (splits : expression = before ++ start) :
    skipForwardTo operator start = .ok (outside parStart parEnd operator 0 start) := by
  induction length : start.length using Nat.strongRecOn generalizing before start with
  | _ length induction =>
    subst length
    cases start with
    | nil => rfl
    | cons character rest =>
      by_cases here : character = operator
      · subst here
        rw [skipForwardTo_here, outside, if_pos ⟨rfl, rfl⟩]
      by_cases block : character = parStart
      · subst block
        obtain ⟨inner, after, rfl, inside⟩ := balanced.exists_match parStart_ne_parEnd splits
        have noStart : parStart ∉ inner := fun member =>
          flat ⟨before, inner, after, splits, inside, member⟩
        rw [skipForwardTo_block _ notStart, overBlock_flat noStart (inside.closing_not_mem noStart),
          outside_pair parStart_ne_parEnd notStart inside]
        apply induction _ _ _ rfl
        · simp only [List.length_cons, List.length_append]
          omega
        · exact before ++ parStart :: inner ++ [parEnd]
        · simp [splits]
      · rw [skipForwardTo_cons rest here block, outside,
          if_neg (fun found => here found.2), if_neg block]
        have later := induction rest.length (Nat.lt_succ_self _)
          (by rw [splits]; simp : expression = (before ++ [character]) ++ rest)
          rfl
        split
        · exact later
        · exact later

end Operators

/-- At each opening parenthesis the skip over the block stops at the matching one. -/
def FindsEnds (expression : List UInt8) : Prop :=
  ∀ before rest, expression = before ++ parStart :: rest →
    ∃ inner after, rest = inner ++ parEnd :: after ∧
      Balanced parStart parEnd inner ∧
      skipForwardOverBlock (parStart :: rest) = parEnd :: after

/-- From each place a skip stops at the first operator of its kind outside of the
groups that begin behind the place, or at the terminator. -/
def FindsOperators (skip : List UInt8 → Except RuleFault (List UInt8))
    (operator : UInt8) (expression : List UInt8) : Prop :=
  ∀ before start, expression = before ++ start →
    skip start = .ok (outside parStart parEnd operator 0 start)

/-- The skips find what they look for in a balanced expression exactly when no
group has a group in it. -/
theorem skips_find_iff (expression : List UInt8) (balanced : Balanced parStart parEnd expression) :
    FindsEnds expression ∧ FindsOperators skipForwardToOR orChar expression ∧
        FindsOperators skipForwardToAND andChar expression ↔
      ¬ Nested parStart parEnd expression := by
  constructor
  · rintro ⟨ends, -, -⟩ ⟨before, inner, after, splits, inside, nested⟩
    obtain ⟨other, behind, same, otherInside, stops⟩ := ends before _ splits
    obtain rfl := inside.match_unique parStart_ne_parEnd otherInside same
    obtain rfl := (List.cons.inj (List.append_cancel_left same)).2
    exact overBlock_nested inside nested after stops
  · intro flat
    refine ⟨?_, ?_, ?_⟩
    · intro before rest splits
      obtain ⟨inner, after, rfl, inside⟩ :=
        balanced.exists_match parStart_ne_parEnd splits
      have noStart : parStart ∉ inner := fun member =>
        flat ⟨before, inner, after, splits, inside, member⟩
      exact ⟨inner, after, rfl, inside,
        overBlock_flat noStart (inside.closing_not_mem noStart) after⟩
    · intro before start splits
      exact skipForwardTo_outside balanced flat (by decide) splits
    · intro before start splits
      exact skipForwardTo_outside balanced flat (by decide) splits

/-- The expression `(1)+2`. -/
theorem skips_find_flat :
    Balanced parStart parEnd (ascii ['(', '1', ')', '+', '2']) ∧
      FindsEnds (ascii ['(', '1', ')', '+', '2']) := by
  have balanced : Balanced parStart parEnd (ascii ['(', '1', ')', '+', '2']) :=
    .pair (.plain (by decide) (by decide) .nil)
      (.plain (by decide) (by decide) (.plain (by decide) (by decide) .nil))
  refine ⟨balanced, ((skips_find_iff _ balanced).mpr fun nested => ?_).1⟩
  have twice := nested.two_le_count
  revert twice
  decide

/-- In `((1))|2` the skip over the outer group does not stop before the terminator,
and the skip to the operator leaves the expression. -/
theorem skips_miss_nested :
    Balanced parStart parEnd (ascii ['(', '(', '1', ')', ')', '|', '2']) ∧
    skipForwardOverBlock (ascii ['(', '(', '1', ')', ')', '|', '2']) = [] ∧
    skipForwardToOR (ascii ['(', '(', '1', ')', ')', '|', '2']) =
      .error .beyond :=
  ⟨.pair (.pair (.plain (by decide) (by decide) .nil) .nil)
    (.plain (by decide) (by decide) (.plain (by decide) (by decide) .nil)),
    by decide, rfl⟩

end MercuryFix
