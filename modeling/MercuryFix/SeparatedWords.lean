import Mathlib.Data.List.Basic
import Mathlib.Tactic.Common

/-!
# Words with separators between them

A text of words is given by its words and the runs of separators between them.  Cutting
the text at every separator gives the words again, apart from the empty pieces inside
the runs.
-/

namespace SeparatedWords

variable {α : Type} {sep : α → Bool}

/-- A word of a text: something without a separator in it. -/
structure Solid (sep : α → Bool) (word : List α) : Prop where
  nonempty : word ≠ []
  free : ∀ character ∈ word, sep character = false

/-- The text consists of the words, in their order, with at least one separator between
any two of them and none around them. -/
inductive Separated (sep : α → Bool) : List (List α) → List α → Prop
  | single {word : List α} (solid : Solid sep word) : Separated sep [word] word
  | cons {word gap : List α} {words : List (List α)} {text : List α}
      (solid : Solid sep word) (nonempty : gap ≠ [])
      (separators : ∀ character ∈ gap, sep character = true)
      (later : Separated sep words text) :
      Separated sep (word :: words) (word ++ gap ++ text)

theorem splitOnP_cases (sep : α → Bool) (text : List α) :
    ((∀ character ∈ text, sep character = false) ∧ text.splitOnP sep = [text]) ∨
    ∃ piece mark rest, (∀ character ∈ piece, sep character = false) ∧ sep mark = true ∧
      text = piece ++ mark :: rest ∧ text.splitOnP sep = piece :: rest.splitOnP sep := by
  induction text with
  | nil => exact .inl ⟨by simp, List.splitOnP_eq_singleton (by simp)⟩
  | cons first text induction =>
    by_cases marked : sep first = true
    · exact .inr ⟨[], first, text, by simp, marked, rfl,
        List.splitOnP_append_cons_of_forall_mem (List.forall_mem_nil _) first marked text⟩
    have plain : sep first = false := by simpa using marked
    rcases induction with ⟨free, -⟩ | ⟨piece, mark, rest, free, marked, rfl, -⟩
    · have all : ∀ character ∈ first :: text, sep character = false := by
        simpa [plain] using free
      exact .inl ⟨all, List.splitOnP_eq_singleton all⟩
    · have all : ∀ character ∈ first :: piece, sep character = false := by
        simpa [plain] using free
      exact .inr ⟨first :: piece, mark, rest, all, marked, rfl,
        List.splitOnP_append_cons_of_forall_mem all mark marked rest⟩

theorem separated_splitOnP {text : List α} (solid : [] ∉ text.splitOnP sep) :
    Separated sep (text.splitOnP sep) text := by
  rcases splitOnP_cases sep text with
    ⟨free, single⟩ | ⟨piece, mark, rest, free, marked, shape, pieces⟩
  · rw [single] at solid ⊢
    exact .single ⟨fun empty => solid (by simp [empty]), free⟩
  · rw [pieces, List.mem_cons, not_or] at solid
    have shorter : rest.length < text.length := by
      rw [shape, List.length_append, List.length_cons]
      omega
    have later := separated_splitOnP solid.2
    have joined : Separated sep (piece :: rest.splitOnP sep) (piece ++ [mark] ++ rest) :=
      .cons ⟨Ne.symm solid.1, free⟩ (by simp) (by simpa using marked) later
    rw [pieces]
    simpa [shape] using joined
termination_by text.length

theorem filter_splitOnP_append {gap : List α}
    (separators : ∀ character ∈ gap, sep character = true) (text : List α) :
    ((gap ++ text).splitOnP sep).filter (fun piece => !piece.isEmpty) =
      (text.splitOnP sep).filter (fun piece => !piece.isEmpty) := by
  induction gap with
  | nil => rfl
  | cons mark gap induction =>
    have first : (mark :: (gap ++ text)).splitOnP sep = [] :: (gap ++ text).splitOnP sep :=
      List.splitOnP_append_cons_of_forall_mem (List.forall_mem_nil _) mark
        (separators mark (by simp)) _
    rw [List.cons_append, first, List.filter_cons]
    exact induction fun character member => separators character (by simp [member])

theorem Separated.filter_splitOnP {words : List (List α)} {text : List α}
    (separated : Separated sep words text) :
    (text.splitOnP sep).filter (fun piece => !piece.isEmpty) = words := by
  induction separated with
  | single solid =>
    rw [List.splitOnP_eq_singleton solid.free]
    simp [solid.nonempty]
  | @cons word gap words text solid nonempty separators later induction =>
    obtain ⟨mark, gap, rfl⟩ := List.exists_cons_of_ne_nil nonempty
    rw [List.append_assoc, List.cons_append,
      List.splitOnP_append_cons_of_forall_mem solid.free mark (separators mark (by simp)),
      List.filter_cons_of_pos (by simp [solid.nonempty]), filter_splitOnP_append
        (fun character member => separators character (by simp [member])), induction]

theorem Separated.splitOnP_eq {words : List (List α)} {text : List α}
    (separated : Separated sep words text) (solid : [] ∉ text.splitOnP sep) :
    text.splitOnP sep = words := by
  rw [← separated.filter_splitOnP, List.filter_eq_self.mpr]
  intro piece member
  cases piece with
  | nil => exact absurd member solid
  | cons => rfl

end SeparatedWords
