import Mathlib.Data.List.Basic
import Mathlib.Tactic.Common

/-!
# Balanced brackets

Words over an alphabet with an opening and a closing bracket, the bracket that
matches another one, and the first letter outside of every pair that a reader of
the word has come into.
-/

namespace Brackets

variable {Letter : Type*} {opening closing : Letter}

inductive Balanced (opening closing : Letter) : List Letter → Prop
  | nil : Balanced opening closing []
  | plain {letter : Letter} {rest : List Letter} (notOpening : letter ≠ opening)
      (notClosing : letter ≠ closing) (balanced : Balanced opening closing rest) :
      Balanced opening closing (letter :: rest)
  | pair {inner rest : List Letter} (inside : Balanced opening closing inner)
      (behind : Balanced opening closing rest) :
      Balanced opening closing (opening :: inner ++ closing :: rest)

/-- A pair of brackets has another one inside of it. -/
def Nested (opening closing : Letter) (word : List Letter) : Prop :=
  ∃ before inner after, word = before ++ opening :: (inner ++ closing :: after) ∧
    Balanced opening closing inner ∧ opening ∈ inner

theorem Balanced.closing_not_mem {word : List Letter}
    (balanced : Balanced opening closing word) (flat : opening ∉ word) :
    closing ∉ word := by
  induction balanced with
  | nil => exact List.not_mem_nil
  | plain notOpening notClosing balanced induction =>
    rw [List.mem_cons, not_or] at flat ⊢
    exact ⟨notClosing.symm, induction flat.2⟩
  | pair inside behind => exact absurd (by simp) flat

theorem Balanced.exists_match (differ : opening ≠ closing) {word : List Letter}
    (balanced : Balanced opening closing word) {before rest : List Letter}
    (splits : word = before ++ opening :: rest) :
    ∃ inner after, rest = inner ++ closing :: after ∧ Balanced opening closing inner := by
  induction balanced generalizing before rest with
  | nil => simp at splits
  | plain notOpening notClosing balanced induction =>
    cases before with
    | nil => exact absurd (List.cons.inj splits).1 notOpening
    | cons letter before => exact induction (List.cons.inj splits).2
  | @pair inner tail inside behind inInside inBehind =>
    cases before with
    | nil => exact ⟨inner, tail, (List.cons.inj splits).2.symm, inside⟩
    | cons letter before =>
      have later := (List.cons.inj splits).2
      rcases List.append_eq_append_iff.mp later with
        ⟨passed, rfl, here⟩ | ⟨left, rfl, here⟩
      · cases passed with
        | nil => exact absurd (List.cons.inj here).1.symm differ
        | cons letter passed => exact inBehind (List.cons.inj here).2
      · cases left with
        | nil => exact absurd (List.cons.inj here).1 differ
        | cons letter left =>
          obtain ⟨rfl, rfl⟩ := List.cons.inj here
          obtain ⟨within, after, rfl, balanced⟩ := inInside rfl
          exact ⟨within, after ++ closing :: tail, by simp, balanced⟩

theorem Balanced.match_unique (differ : opening ≠ closing) {inner other after behind : List Letter}
    (balanced : Balanced opening closing inner) (otherBalanced : Balanced opening closing other)
    (same : inner ++ closing :: after = other ++ closing :: behind) :
    inner = other := by
  induction balanced generalizing other after behind with
  | nil =>
    cases otherBalanced with
    | nil => rfl
    | plain notOpening notClosing =>
      exact absurd (List.cons.inj same).1.symm notClosing
    | pair => exact absurd (List.cons.inj same).1.symm differ
  | plain notOpening notClosing balanced induction =>
    cases otherBalanced with
    | nil => exact absurd (List.cons.inj same).1 notClosing
    | plain _ _ otherBalanced =>
      obtain ⟨rfl, rest⟩ := List.cons.inj same
      rw [induction otherBalanced rest]
    | pair => exact absurd (List.cons.inj same).1 notOpening
  | @pair inner tail inside outside inInside inOutside =>
    cases otherBalanced with
    | nil => exact absurd (List.cons.inj same).1 differ
    | plain notOpening => exact absurd (List.cons.inj same).1.symm notOpening
    | @pair others rear otherInside otherOutside =>
      have rest : inner ++ closing :: (tail ++ closing :: after) =
          others ++ closing :: (rear ++ closing :: behind) := by
        simpa using same
      obtain rfl := inInside otherInside rest
      have tails := List.append_cancel_left rest
      rw [inOutside otherOutside (List.cons.inj tails).2]

section Outside

variable [DecidableEq Letter]

theorem Nested.two_le_count {word : List Letter}
    (nested : Nested opening closing word) : 2 ≤ word.count opening := by
  obtain ⟨before, inner, after, rfl, -, member⟩ := nested
  have inside := List.count_pos_iff.mpr member
  simp only [List.count_append, List.count_cons_self]
  omega

/-- The rest of a word from the first `target` on that is not inside of a pair
which begins in the word.  A closing bracket without its opening one in the word
closes nothing. -/
def outside (opening closing target : Letter) : Nat → List Letter → List Letter
  | _, [] => []
  | depth, letter :: rest =>
    if depth = 0 ∧ letter = target then letter :: rest
    else if letter = opening then
      outside opening closing target (depth + 1) rest
    else if letter = closing then
      outside opening closing target (depth - 1) rest
    else outside opening closing target depth rest

theorem outside_balanced (differ : opening ≠ closing) {inner : List Letter}
    (balanced : Balanced opening closing inner) (target : Letter) (depth : Nat)
    (rest : List Letter) :
    outside opening closing target (depth + 1) (inner ++ rest) =
      outside opening closing target (depth + 1) rest := by
  induction balanced generalizing depth rest with
  | nil => rfl
  | plain notOpening notClosing balanced induction =>
    rw [List.cons_append, outside, if_neg (by omega), if_neg notOpening, if_neg notClosing]
    exact induction depth rest
  | pair inside behind inInside inBehind =>
    rw [List.append_assoc, List.cons_append, outside, if_neg (by omega),
      if_pos rfl, inInside, List.cons_append, outside, if_neg (by omega),
      if_neg differ.symm, if_pos rfl]
    exact inBehind depth rest

theorem outside_pair (differ : opening ≠ closing) {target : Letter}
    (notOpening : opening ≠ target) {inner : List Letter}
    (balanced : Balanced opening closing inner) (rest : List Letter) :
    outside opening closing target 0 (opening :: (inner ++ closing :: rest)) =
      outside opening closing target 0 rest := by
  rw [outside, if_neg (fun here => notOpening here.2), if_pos rfl,
    outside_balanced differ balanced, outside, if_neg (by omega),
    if_neg differ.symm, if_pos rfl]

end Outside

end Brackets
