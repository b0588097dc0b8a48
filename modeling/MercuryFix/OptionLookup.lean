import Mathlib.Data.List.Infix
import Mathlib.Data.Nat.Find
import Mathlib.Tactic.Common

/-!
# Options by name and by abbreviation

The lookup of one argument of the command line in a table of options.  The arguments
are C strings without their terminators, and reading behind a terminator gives no
result.
-/

namespace MercuryFix

inductive NeedParam
  | noParam
  | needParam
  | optionalParam
  deriving DecidableEq

/-- `option_t` without its help text; the flag is the address of an `int`. -/
structure CommandOption where
  name : List UInt8
  param : NeedParam
  flag : Option Nat
  val : Int
  deriving DecidableEq

def argoptAmbigiousOption : Int := -2

def argoptUnknownOption : Int := -3

section Functions

/-- The loop of `match_meassure`.  The second string is only advanced if the first one
goes on. -/
def matchMeassureLoop : List UInt8 → List UInt8 → Nat → Option Nat
  | [], [], _ => none
  | [], _ :: _, retv => some retv
  | _ :: _, [], retv => some retv
  | first :: str1, second :: str2, retv =>
    if first ≠ second then some retv
    else if str1 = [] ∨ str2 = [] then some (retv + 1)
    else matchMeassureLoop str1 str2 (retv + 1)

def matchMeassure : Option (List UInt8) → Option (List UInt8) → Option Nat
  | some str1, some str2 => matchMeassureLoop str1 str2 0
  | _, _ => some 0

/-- The local variables that the loop of `find_option` changes. -/
structure FindState where
  best : Nat
  bestIdx : Nat
  amb : Bool
  found : Bool
  deriving DecidableEq

/-- What `find_option` does with the option at `i` that is not the text itself. -/
def FindState.weigh (state : FindState) (i count minMatch : Nat) : FindState :=
  if count = 0 then state
  else if count ≠ minMatch then state
  else if count = state.best then { state with found := true, amb := true }
  else if state.best < count then
    { best := count, bestIdx := i, amb := false, found := true }
  else { state with found := true }

/-- What `find_option` returns behind its loop. -/
def FindState.result (state : FindState) : Int :=
  if state.found = false then argoptUnknownOption
  else if state.amb = true then argoptAmbigiousOption
  else state.bestIdx

def findOptionLoop (opt : List UInt8) :
    List CommandOption → Nat → FindState → Option Int
  | [], _, state => some state.result
  | option :: options, i, state =>
    if opt = option.name then some i
    else do
      let count ← matchMeassure (some option.name) (some opt)
      findOptionLoop opt options (i + 1) (state.weigh i count opt.length)

def findOption (opt : List UInt8) (options : List CommandOption) : Option Int :=
  match opt with
  | [] => none
  | _ :: text => findOptionLoop text options 0 ⟨0, 0, true, false⟩

end Functions

section Measure

theorem matchMeassureLoop_eq (str1 : List UInt8) {str2 : List UInt8}
    (nonempty : str2 ≠ []) (retv : Nat) :
    ∃ count, matchMeassureLoop str1 str2 retv = some (retv + count) ∧
      (count = str2.length ↔ str2 <+: str1) := by
  induction str1 generalizing str2 retv with
  | nil =>
    cases str2 with
    | nil => exact absurd rfl nonempty
    | cons second str2 => exact ⟨0, rfl, by simp⟩
  | cons first str1 induction =>
    cases str2 with
    | nil => exact absurd rfl nonempty
    | cons second str2 =>
      rw [matchMeassureLoop]
      by_cases differ : first ≠ second
      · rw [if_pos differ]
        refine ⟨0, rfl, ?_⟩
        simp [List.cons_prefix_cons, differ.symm]
      rw [if_neg differ]
      obtain rfl : first = second := not_not.mp differ
      by_cases ends : str1 = [] ∨ str2 = []
      · rw [if_pos ends]
        refine ⟨1, rfl, ?_⟩
        rcases ends with rfl | rfl
        · cases str2 <;> simp [List.cons_prefix_cons]
        · simp [List.cons_prefix_cons]
      · rw [not_or] at ends
        obtain ⟨count, counts, whole⟩ := induction ends.2 (retv + 1)
        refine ⟨count + 1, ?_, ?_⟩
        · rw [if_neg (by simp [ends]), counts, Nat.add_assoc, Nat.add_comm 1]
        · rw [List.cons_prefix_cons, ← whole, List.length_cons]
          simp

end Measure

section Lookup

def Candidate (text : List UInt8) (names : List (List UInt8)) (i : Nat) : Prop :=
  ∃ name, names[i]? = some name ∧ text <+: name

/-- The option that a text stands for: the first with that name, or else the only one
whose name it abbreviates. -/
structure Abbreviates (text : List UInt8) (names : List (List UInt8)) (result : Int) :
    Prop where
  exact : ∀ i : Nat, names[i]? = some text → (∀ j < i, names[j]? ≠ some text) → result = i
  unique : text ∉ names → ∀ i : Nat, Candidate text names i →
    (∀ j, Candidate text names j → j = i) → result = i
  ambiguous : text ∉ names → ∀ i j, i ≠ j → Candidate text names i →
    Candidate text names j → result = argoptAmbigiousOption
  unknown : (∀ i, ¬ Candidate text names i) → result = argoptUnknownOption

variable {text : List UInt8} {seen names : List (List UInt8)} {state : FindState}

theorem Candidate.lt_length {i : Nat} (candidate : Candidate text names i) : i < names.length := by
  obtain ⟨name, position, -⟩ := candidate
  exact (List.getElem?_eq_some_iff.mp position).1

theorem candidate_concat_iff {name : List UInt8} {i : Nat} : Candidate text (seen ++ [name]) i ↔
      Candidate text seen i ∨ (i = seen.length ∧ text <+: name) := by
  unfold Candidate
  rcases Nat.lt_trichotomy i seen.length with front | rfl | behind
  · simp [List.getElem?_append_left front, Nat.ne_of_lt front]
  · simp
  · have none_left : seen[i]? = none := List.getElem?_eq_none (by omega)
    have none_both : (seen ++ [name])[i]? = none := List.getElem?_eq_none (by simp; omega)
    simp [none_left, none_both, Nat.ne_of_gt behind]

/-- What the loop of `find_option` knows of the names it has seen. -/
structure Seen (text : List UInt8) (seen : List (List UInt8)) (state : FindState) :
    Prop where
  fresh : text ∉ seen
  best : state.best = if state.found then text.length else 0
  found : state.found = true ↔ ∃ i, Candidate text seen i
  index : state.found = true → Candidate text seen state.bestIdx
  amb : state.found = true →
    (state.amb = true ↔ ∃ i j, i ≠ j ∧ Candidate text seen i ∧ Candidate text seen j)

theorem Seen.start (text : List UInt8) : Seen text [] ⟨0, 0, true, false⟩ where
  fresh := by simp
  best := rfl
  found := by simp [Candidate]
  index := by simp
  amb := by simp

theorem Seen.skip {name : List UInt8} (known : Seen text seen state)
    (other : text ≠ name) (apart : ¬ text <+: name) :
    Seen text (seen ++ [name]) state := by
  have same : ∀ i, Candidate text (seen ++ [name]) i ↔ Candidate text seen i := by
    intro i
    simp [candidate_concat_iff, apart]
  constructor
  · simp [known.fresh, other]
  · exact known.best
  · simp only [same, known.found]
  · simpa only [same] using known.index
  · simpa only [same] using known.amb

theorem Seen.take {name : List UInt8} (known : Seen text seen state)
    (nonempty : text ≠ []) (other : text ≠ name) (starts : text <+: name) :
    Seen text (seen ++ [name]) (state.weigh seen.length text.length text.length) := by
  have positive : 0 < text.length := List.length_pos_iff.mpr nonempty
  have last : Candidate text (seen ++ [name]) seen.length :=
    candidate_concat_iff.mpr (.inr ⟨rfl, starts⟩)
  have fresh : text ∉ seen ++ [name] := by simp [known.fresh, other]
  rw [FindState.weigh, if_neg (by omega), if_neg (by simp)]
  by_cases found : state.found = true
  · have best : state.best = text.length := by rw [known.best, if_pos found]
    have earlier := known.index found
    rw [if_pos best.symm]
    refine ⟨fresh, by simp [best], ⟨fun _ => ⟨_, last⟩, fun _ => rfl⟩,
      fun _ => candidate_concat_iff.mpr (.inl earlier), fun _ => ⟨fun _ => ?_, fun _ => rfl⟩⟩
    exact ⟨state.bestIdx, seen.length, Nat.ne_of_lt earlier.lt_length,
      candidate_concat_iff.mpr (.inl earlier), last⟩
  · have best : state.best = 0 := by rw [known.best, if_neg found]
    have only : ∀ i, Candidate text (seen ++ [name]) i → i = seen.length := by
      intro i candidate
      rcases candidate_concat_iff.mp candidate with earlier | ⟨here, -⟩
      · exact absurd (known.found.mpr ⟨i, earlier⟩) found
      · exact here
    rw [if_neg (by omega), if_pos (by omega)]
    refine ⟨fresh, rfl, ⟨fun _ => ⟨_, last⟩, fun _ => rfl⟩, fun _ => last,
      fun _ => ⟨fun ambiguous => by simp at ambiguous, ?_⟩⟩
    rintro ⟨i, j, different, first, second⟩
    exact absurd ((only i first).trans (only j second).symm) different

theorem Seen.weigh {name : List UInt8} {count : Nat} (known : Seen text seen state)
    (nonempty : text ≠ []) (other : text ≠ name)
    (whole : count = text.length ↔ text <+: name) :
    Seen text (seen ++ [name]) (state.weigh seen.length count text.length) := by
  by_cases starts : text <+: name
  · rw [whole.mpr starts]
    exact known.take nonempty other starts
  · have unchanged : state.weigh seen.length count text.length = state := by
      rw [FindState.weigh]
      split_ifs with zero different
      · rfl
      · rfl
      all_goals exact absurd (whole.mp (not_not.mp different)) starts
    rw [unchanged]
    exact known.skip other starts

theorem Seen.abbreviates (known : Seen text names state) : Abbreviates text names state.result := by
  have absent : ∀ i : Nat, names[i]? ≠ some text :=
    fun i position => known.fresh (List.mem_of_getElem? position)
  unfold FindState.result
  constructor
  · intro i position
    exact absurd position (absent i)
  · intro _ i candidate only
    have found := known.found.mpr ⟨i, candidate⟩
    have plain : ¬ state.amb = true := by
      rw [known.amb found]
      rintro ⟨j, k, different, first, second⟩
      exact different ((only j first).trans (only k second).symm)
    rw [if_neg (by simp [found]), if_neg plain, only _ (known.index found)]
  · intro _ i j different first second
    have found := known.found.mpr ⟨i, first⟩
    rw [if_neg (by simp [found]), if_pos ((known.amb found).mpr ⟨i, j, different, first, second⟩)]
  · intro none_starts
    refine if_pos (Bool.not_eq_true _ ▸ fun found => ?_)
    obtain ⟨i, candidate⟩ := known.found.mp found
    exact none_starts i candidate

theorem abbreviates_exact {later : List (List UInt8)} (fresh : text ∉ seen) :
    Abbreviates text (seen ++ text :: later) seen.length := by
  have position : (seen ++ text :: later)[seen.length]? = some text := by simp
  constructor
  · intro i here first
    rcases Nat.lt_trichotomy i seen.length with front | rfl | behind
    · rw [List.getElem?_append_left front] at here
      exact absurd (List.mem_of_getElem? here) fresh
    · rfl
    · exact absurd position (first _ behind)
  · intro absent
    exact absurd (by simp) absent
  · intro absent
    exact absurd (by simp) absent
  · intro none_starts
    exact absurd ⟨text, position, List.prefix_rfl⟩ (none_starts seen.length)

theorem Abbreviates.cases {result : Int} (abbreviates : Abbreviates text names result) :
    (∃ i : Nat, i < names.length ∧ result = i) ∨
      result = argoptAmbigiousOption ∨ result = argoptUnknownOption := by
  classical
  by_cases member : text ∈ names
  · have exists_index : ∃ i : Nat, names[i]? = some text := List.mem_iff_getElem?.mp member
    have here := Nat.find_spec exists_index
    have first : ∀ j < Nat.find exists_index, names[j]? ≠ some text :=
      fun j before => Nat.find_min exists_index before
    exact .inl ⟨_, (List.getElem?_eq_some_iff.mp here).1, abbreviates.exact _ here first⟩
  by_cases starts : ∃ i, Candidate text names i
  · obtain ⟨i, candidate⟩ := starts
    by_cases only : ∀ j, Candidate text names j → j = i
    · exact .inl ⟨i, candidate.lt_length, abbreviates.unique member i candidate only⟩
    · push Not at only
      obtain ⟨j, second, different⟩ := only
      exact .inr (.inl (abbreviates.ambiguous member j i different second candidate))
  · push Not at starts
    exact .inr (.inr (abbreviates.unknown starts))

theorem findOptionLoop_abbreviates (nonempty : text ≠ []) (options : List CommandOption)
    (known : Seen text seen state) :
    ∃ result, findOptionLoop text options seen.length state = some result ∧
      Abbreviates text (seen ++ options.map CommandOption.name) result := by
  induction options generalizing seen state with
  | nil =>
    rw [List.map_nil, List.append_nil]
    exact ⟨_, rfl, known.abbreviates⟩
  | cons option options induction =>
    rw [findOptionLoop, List.map_cons]
    by_cases same : text = option.name
    · rw [if_pos same, ← same]
      exact ⟨_, rfl, abbreviates_exact known.fresh⟩
    · obtain ⟨count, counts, whole⟩ := matchMeassureLoop_eq option.name nonempty 0
      have later := induction (known.weigh nonempty same whole)
      rw [List.length_append, List.length_singleton, List.append_assoc] at later
      rw [if_neg same, matchMeassure, counts, Nat.zero_add]
      exact later

end Lookup

/-- An option is found by its whole name or by an abbreviation that is unique in the
table. -/
theorem findOption_abbreviates (options : List CommandOption) (text : List UInt8)
    (nonempty : text ≠ []) :
    ∃ result, findOption (45 :: text) options = some result ∧
      Abbreviates text (options.map CommandOption.name) result :=
  findOptionLoop_abbreviates nonempty options (Seen.start text)

/-- In a table of `ab` and `acd`, the text `a` abbreviates both. -/
theorem findOption_abbreviates_two :
    findOption [45, 97, 99]
        [⟨[97, 98], .noParam, none, 1⟩, ⟨[97, 99, 100], .noParam, none, 2⟩] = some 1 ∧
    findOption [45, 97]
        [⟨[97, 98], .noParam, none, 1⟩, ⟨[97, 99, 100], .noParam, none, 2⟩] =
      some argoptAmbigiousOption ∧
    ∃ result, findOption [45, 98]
        [⟨[97, 98], .noParam, none, 1⟩, ⟨[97, 99, 100], .noParam, none, 2⟩] = some result ∧
      Abbreviates [98] [[97, 98], [97, 99, 100]] result :=
  ⟨by decide, by decide, findOption_abbreviates
    [⟨[97, 98], .noParam, none, 1⟩, ⟨[97, 99, 100], .noParam, none, 2⟩] [98] (by decide)⟩

end MercuryFix
