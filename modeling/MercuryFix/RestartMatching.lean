import Mathlib.Data.List.Induction
import Mathlib.Data.List.Infix

/-!
# Searching for a pattern without a table

A matcher keeps the number of symbols of the pattern that it has matched.  On a
mismatch it looks at the first symbol of the pattern only, where a complete one
would go back to the longest part of the pattern that can still become a match.
`Resumes` says for which patterns that makes no difference, up to symbols that end
the search behind a whole match.
-/

namespace RestartMatching

variable {Symbol : Type*}

section Places

/-- No symbol of the text stands in a place with this property, which is about the
symbols in front of it and the symbol itself. -/
def Nowhere (Here : List Symbol → Symbol → Prop) (text : List Symbol) : Prop :=
  ∀ before symbol after, text = before ++ symbol :: after → ¬ Here before symbol

variable {Here : List Symbol → Symbol → Prop} {text : List Symbol}
  {symbol : Symbol}

theorem nowhere_nil : Nowhere Here [] := by
  intro before symbol after splits
  simp at splits

theorem nowhere_concat :
    Nowhere Here (text ++ [symbol]) ↔ Nowhere Here text ∧ ¬ Here text symbol := by
  constructor
  · intro nowhere
    constructor
    · rintro before other after rfl
      exact nowhere before other (after ++ [symbol]) (by simp)
    · exact nowhere text symbol [] rfl
  · rintro ⟨earlier, last⟩ before other after splits
    induction after using List.reverseRecOn with
    | nil =>
      obtain ⟨rfl, same⟩ := List.append_inj' splits rfl
      cases same
      exact last
    | append_singleton after final _ =>
      rw [← List.cons_append, ← List.append_assoc] at splits
      obtain ⟨rfl, -⟩ := List.append_inj' splits rfl
      exact earlier before other after rfl

theorem nowhere_append {more : List Symbol} : Nowhere Here (text ++ more) ↔
      Nowhere Here text ∧ Nowhere (fun before => Here (text ++ before)) more := by
  induction more using List.reverseRecOn with
  | nil => simp [nowhere_nil]
  | append_singleton more symbol induction =>
    rw [← List.append_assoc, nowhere_concat, induction, nowhere_concat, and_assoc]

theorem exists_first_place (somewhere : ¬ Nowhere Here text) :
    ∃ before symbol after, text = before ++ symbol :: after ∧
      Here before symbol ∧ Nowhere Here before := by
  induction text using List.reverseRecOn with
  | nil => exact absurd nowhere_nil somewhere
  | append_singleton text symbol induction =>
    by_cases earlier : Nowhere Here text
    · have here : Here text symbol := by
        by_contra elsewhere
        exact somewhere (nowhere_concat.mpr ⟨earlier, elsewhere⟩)
      exact ⟨text, symbol, [], rfl, here, earlier⟩
    · obtain ⟨before, first, after, rfl, here, none⟩ := induction earlier
      exact ⟨before, first, after ++ [symbol], by simp, here, none⟩

end Places

/-- The number of matched symbols behind one more symbol. -/
def advance [DecidableEq Symbol] (pattern : List Symbol) (matched : Nat) (symbol : Symbol) : Nat :=
  if pattern[matched]? = some symbol then matched + 1
  else if pattern[0]? = some symbol then 1
  else 0

/-- The text ends in the first `matched` symbols of the pattern, and in no longer
part at the front of it. -/
structure Longest (pattern text : List Symbol) (matched : Nat) : Prop where
  within : matched ≤ pattern.length
  ends : pattern.take matched <:+ text
  longest : ∀ length ≤ pattern.length, pattern.take length <:+ text → length ≤ matched

/-- Whenever a shorter part at the front of the pattern is also the end of a longer
one, the same symbol follows both.  Behind the whole pattern a symbol that ends the
search will do. -/
def Resumes (Final : Symbol → Prop) (pattern : List Symbol) : Prop :=
  ∀ shorter longer symbol, 0 < shorter → shorter < longer →
    longer ≤ pattern.length → pattern.take shorter <:+ pattern.take longer →
    pattern[shorter]? = some symbol →
    pattern[longer]? = some symbol ∨ longer = pattern.length ∧ Final symbol

variable {pattern text : List Symbol} {matched : Nat} {symbol : Symbol}

theorem advance_le_one [DecidableEq Symbol] (differs : pattern[matched]? ≠ some symbol) :
    advance pattern matched symbol ≤ 1 := by
  unfold advance
  rw [if_neg differs]
  split <;> omega

theorem take_succ_suffix_iff {length : Nat} (inside : length < pattern.length) :
    pattern.take (length + 1) <:+ text ++ [symbol] ↔
      pattern.take length <:+ text ∧ pattern[length]? = some symbol := by
  rw [List.take_succ_eq_append_getElem inside, List.getElem?_eq_getElem inside]
  constructor
  · rintro ⟨front, joined⟩
    rw [← List.append_assoc] at joined
    obtain ⟨same, last⟩ := List.append_inj' joined rfl
    exact ⟨⟨front, same⟩, congrArg some (List.singleton_inj.mp last)⟩
  · rintro ⟨⟨front, rfl⟩, same⟩
    rw [Option.some.inj same]
    exact ⟨front, by simp⟩

theorem longest_nil : Longest pattern [] 0 where
  within := Nat.zero_le _
  ends := by simp
  longest := by
    intro length inside ends
    have empty := ends.length_le
    rw [List.length_take, List.length_nil] at empty
    omega

theorem Longest.eq_length_iff (longest : Longest pattern text matched) :
    matched = pattern.length ↔ pattern <:+ text := by
  constructor
  · intro whole
    have ends := longest.ends
    rwa [whole, List.take_length] at ends
  · intro ends
    have reached := longest.longest pattern.length le_rfl (by rwa [List.take_length])
    have within := longest.within
    omega

theorem Longest.advance [DecidableEq Symbol] {Final : Symbol → Prop}
    (resumes : Resumes Final pattern) (longest : Longest pattern text matched)
    (searching : matched = pattern.length → ¬ Final symbol) :
    Longest pattern (text ++ [symbol]) (advance pattern matched symbol) := by
  have within := longest.within
  have shorter : ∀ length < pattern.length, pattern.take (length + 1) <:+ text ++ [symbol] →
        length ≤ matched ∧ pattern[length]? = some symbol := by
    intro length inside ends
    obtain ⟨earlier, next⟩ := (take_succ_suffix_iff inside).mp ends
    exact ⟨longest.longest length inside.le earlier, next⟩
  unfold RestartMatching.advance
  by_cases next : pattern[matched]? = some symbol
  · obtain ⟨inside, -⟩ := List.getElem?_eq_some_iff.mp next
    rw [if_pos next]
    refine ⟨inside, (take_succ_suffix_iff inside).mpr ⟨longest.ends, next⟩, ?_⟩
    intro length bound ends
    cases length with
    | zero => exact Nat.zero_le _
    | succ length => exact Nat.succ_le_succ (shorter length bound ends).1
  · -- A part of at least two symbols would go on behind a shorter match.
    have single : ∀ length ≤ pattern.length,
        pattern.take length <:+ text ++ [symbol] → length ≤ 1 := by
      intro length bound ends
      by_contra long
      obtain ⟨length, rfl⟩ : ∃ rest, length = rest + 1 := ⟨length - 1, by omega⟩
      obtain ⟨below, follows⟩ := shorter length bound ends
      have different : length ≠ matched := by
        rintro rfl
        exact next follows
      have overlap : pattern.take length <:+ pattern.take matched := List.suffix_of_suffix_length_le
          ((take_succ_suffix_iff bound).mp ends).1 longest.ends (by simp; omega)
      rcases resumes length matched symbol (by omega) (by omega) within overlap
        follows with same | ⟨whole, final⟩
      · exact next same
      · exact searching whole final
    rw [if_neg next]
    by_cases first : pattern[0]? = some symbol
    · obtain ⟨inside, -⟩ := List.getElem?_eq_some_iff.mp first
      rw [if_pos first]
      exact ⟨inside, (take_succ_suffix_iff inside).mpr ⟨by simp, first⟩, single⟩
    · rw [if_neg first]
      refine ⟨Nat.zero_le _, by simp, ?_⟩
      intro length bound ends
      rcases Nat.lt_or_ge 0 length with positive | none
      · have isOne : length = 0 + 1 := by
          have small := single length bound ends
          omega
        rw [isOne] at ends bound
        exact absurd (shorter 0 bound ends).2 first
      · exact none

theorem resumes_of_unique {Final : Symbol → Prop}
    (unique : ∀ place, 0 < place → place < pattern.length →
      pattern[place]? ≠ pattern[0]?) : Resumes Final pattern := by
  intro shorter longer symbol positive below within overlap follows
  exfalso
  obtain ⟨inside, -⟩ := List.getElem?_eq_some_iff.mp follows
  obtain ⟨front, joined⟩ := overlap
  have width := congrArg List.length joined
  rw [List.length_append, List.length_take, List.length_take,
    Nat.min_eq_left inside.le, Nat.min_eq_left within] at width
  have again : pattern[longer - shorter]? = pattern[0]? := by
    have place := congrArg (fun list => list[front.length]?) joined
    rw [List.getElem?_append_right le_rfl, Nat.sub_self, List.getElem?_take_of_lt positive,
      List.getElem?_take_of_lt (by omega)] at place
    rw [place]
    congr 1
    omega
  exact unique (longer - shorter) (by omega) (by omega) again

end RestartMatching
