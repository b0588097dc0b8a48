import MercuryFix.ByteBlocks

/-!
# Searching delimited text for a delimited pattern

A text of segments, each closed by a delimiter, is searched for a pattern that starts
with the delimiter and does not hold it again.  An occurrence of the pattern then
lies inside one segment or starts where a segment ends.
-/

namespace ByteBlock

variable {Cell : Type*} {delimiter : Cell} {pattern : List Cell}

def closeSegments (delimiter : Cell) (segments : List (List Cell)) : List Cell :=
  segments.flatMap (· ++ [delimiter])

theorem closeSegments_cons (segment : List Cell) (segments : List (List Cell)) :
    closeSegments delimiter (segment :: segments) =
      segment ++ delimiter :: closeSegments delimiter segments := by
  simp [closeSegments]

theorem closeSegments_append (first second : List (List Cell)) :
    closeSegments delimiter (first ++ second) =
      closeSegments delimiter first ++ closeSegments delimiter second :=
  List.flatMap_append

theorem closeSegments_eq_concat {segments : List (List Cell)} (nonempty : segments ≠ []) :
    ∃ front, closeSegments delimiter segments = front ++ [delimiter] := by
  obtain ⟨earlier, last, rfl⟩ := List.eq_nil_or_concat' segments |>.resolve_left nonempty
  refine ⟨closeSegments delimiter earlier ++ last, ?_⟩
  rw [closeSegments_append, closeSegments_cons, List.append_assoc]
  rfl

theorem prefix_of_delimited {front back : List Cell} (absent : delimiter ∉ pattern)
    (starts : pattern <+: front ++ delimiter :: back) : pattern <+: front := by
  rcases Nat.le_total pattern.length front.length with short | long
  · exact List.prefix_of_prefix_length_le starts (List.prefix_append _ _) short
  · have whole : front <+: pattern :=
      List.prefix_of_prefix_length_le (List.prefix_append _ _) starts long
    obtain ⟨more, rfl⟩ := whole
    rw [List.prefix_append_right_inj] at starts
    cases more with
    | nil => simp
    | cons first more =>
      obtain ⟨rfl, -⟩ := List.cons_prefix_cons.mp starts
      exact absurd (by simp) absent

theorem infix_of_delimited {front back : List Cell} (absent : delimiter ∉ pattern)
    (occurs : delimiter :: pattern <:+: front ++ delimiter :: back) :
    delimiter :: pattern <:+: front ∨ pattern <+: back ∨ delimiter :: pattern <:+: back := by
  induction front with
  | nil =>
    rcases List.infix_cons_iff.mp occurs with here | later
    · exact Or.inr (Or.inl (List.cons_prefix_cons.mp here).2)
    · exact Or.inr (Or.inr later)
  | cons cell front induction =>
    rcases List.infix_cons_iff.mp occurs with here | later
    · obtain ⟨rfl, starts⟩ := List.cons_prefix_cons.mp here
      have inside := prefix_of_delimited absent starts
      exact Or.inl (List.cons_prefix_cons.mpr ⟨rfl, inside⟩).isInfix
    · rcases induction later with inside | rest
      · exact Or.inl (inside.trans (List.suffix_cons _ _).isInfix)
      · exact Or.inr rest

theorem segment_of_infix {segments : List (List Cell)} (nonempty : pattern ≠ [])
    (absent : delimiter ∉ pattern)
    (occurs : delimiter :: pattern <:+: closeSegments delimiter segments) :
    (∃ segment ∈ segments, delimiter :: pattern <:+: segment) ∨
      ∃ segment ∈ segments.tail, pattern <+: segment := by
  induction segments with
  | nil => simp [closeSegments] at occurs
  | cons segment segments induction =>
    rw [closeSegments_cons] at occurs
    rcases infix_of_delimited absent occurs with inside | starts | later
    · exact Or.inl ⟨segment, by simp, inside⟩
    · cases segments with
      | nil =>
        rw [closeSegments, List.flatMap_nil, List.prefix_nil] at starts
        exact absurd starts nonempty
      | cons next segments =>
        rw [closeSegments_cons] at starts
        exact Or.inr ⟨next, by simp, prefix_of_delimited absent starts⟩
    · rcases induction later with ⟨other, member, inside⟩ | ⟨other, member, starts⟩
      · exact Or.inl ⟨other, List.mem_cons_of_mem _ member, inside⟩
      · exact Or.inr ⟨other, List.mem_of_mem_tail member, starts⟩

variable [DecidableEq Cell]

theorem memmem_behind {front rest : List Cell} (absent : delimiter ∉ pattern)
    (elsewhere : ¬ delimiter :: pattern <:+: front) :
    memmem (delimiter :: pattern) (front ++ delimiter :: (pattern ++ rest)) =
      some front.length := by
  induction front with
  | nil => exact memmem_of_here (List.prefix_append (delimiter :: pattern) rest)
  | cons cell front induction =>
    have notHere : ¬ delimiter :: pattern <+:
        cell :: (front ++ delimiter :: (pattern ++ rest)) := by
      intro here
      obtain ⟨rfl, starts⟩ := List.cons_prefix_cons.mp here
      exact elsewhere (List.cons_prefix_cons.mpr ⟨rfl, prefix_of_delimited absent starts⟩).isInfix
    have later : ¬ delimiter :: pattern <:+: front := fun inside =>
      elsewhere (inside.trans (List.suffix_cons _ _).isInfix)
    rw [List.cons_append, memmem_step notHere, induction later]
    rfl

theorem infix_of_skipped {skipped text : List Cell} (absent : delimiter ∉ skipped)
    (occurs : delimiter :: pattern <:+: skipped ++ text) :
    delimiter :: pattern <:+: text := by
  rw [← isSome_memmem_iff, memmem_skip absent, Option.isSome_map] at occurs
  exact isSome_memmem_iff.mp occurs

end ByteBlock
