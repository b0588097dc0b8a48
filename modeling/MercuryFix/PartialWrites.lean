import Mathlib.Algebra.GroupWithZero.Nat
import Mathlib.Data.List.Nodup
import Mathlib.Data.List.SplitLengths

/-!
# Partial writes

`do_writev` goes on behind a short write.  What it takes off the entry that the write
has ended in is as long as the part that is still to be written, where it should be as
long as the part that is already out, so the two have to be equal.

An entry of the array is the list of its bytes, of any type, and an entry that the
loop has passed is left out.  `none` stands for a write that is still to return, and
for an access behind the array.
-/

namespace MercuryFix

/-- What a call of `writev` returns, with `errno` where it is an error that is not
tried again. -/
inductive WritevResult
  | retry
  | failure (errno : Nat)
  | written (count : Nat)
  deriving DecidableEq

variable {Byte : Type*}

/-- The loop over the array behind a short write, and the update of the entry that it
ends at. -/
def cutIov (written : Nat) : List (List Byte) → Nat → Option (List (List Byte))
  | [], _ => none
  | entry :: iov, sum =>
    if written < sum + entry.length then
      some (entry.drop (sum + entry.length - written) :: iov)
    else cutIov written iov (sum + entry.length)

/-- The bytes that the descriptor takes, and what `do_writev` returns. -/
def doWritev : List WritevResult → Nat → List (List Byte) →
    Option (List Byte × Nat)
  | [], _, _ => none
  | .retry :: results, total, iov => doWritev results total iov
  | .failure errno :: _, _, _ => some ([], errno)
  | .written count :: results, total, iov =>
    if iov.flatten.length < count then none
    else
      let total := (total + 2 ^ 64 - count) % 2 ^ 64
      if total = 0 then some (iov.flatten.take count, 0)
      else do
        let rest ← cutIov count iov 0
        let (accepted, returned) ← doWritev results total rest
        some (iov.flatten.take count ++ accepted, returned)

def WritevResult.Working : WritevResult → Prop
  | retry => True
  | failure _ => False
  | written count => 1 ≤ count

instance : DecidablePred WritevResult.Working
  | .retry => inferInstanceAs (Decidable True)
  | .failure _ => inferInstanceAs (Decidable False)
  | .written count => inferInstanceAs (Decidable (1 ≤ count))

/-- What is left of entries of these lengths behind a write that ends in the middle of
one of them. -/
def middle : Nat → List Nat → Option (List Nat)
  | _, [] => none
  | written, length :: lengths =>
    if written < length then
      if 2 * written = length then some (written :: lengths) else none
    else middle (written - length) lengths

/-- Every write but the last one ends in the middle of an entry. -/
def Halves : List WritevResult → List Nat → Prop
  | [], _ => True
  | .retry :: results, lengths => Halves results lengths
  | .failure _ :: _, _ => True
  | .written count :: results, lengths =>
    count = lengths.sum ∨ ∃ rest, middle count lengths = some rest ∧ Halves results rest

section Cut

variable {written sum : Nat} {iov : List (List Byte)}

theorem cutIov_of_middle {rest : List Nat} (below : sum ≤ written)
    (ends : middle (written - sum) (iov.map List.length) = some rest) :
    ∃ next, cutIov written iov sum = some next ∧ next.map List.length = rest ∧
      next.flatten = iov.flatten.drop (written - sum) := by
  induction iov generalizing sum with
  | nil => cases ends
  | cons entry iov induction =>
    rw [List.map_cons, middle] at ends
    rw [cutIov, List.flatten_cons]
    by_cases inside : written < sum + entry.length
    · rw [if_pos (by omega)] at ends
      obtain ⟨half, same⟩ := Option.ite_none_right_eq_some.mp ends
      cases same
      have cut : sum + entry.length - written = written - sum := by omega
      refine ⟨_, if_pos inside, ?_, ?_⟩
      · rw [List.map_cons, List.length_drop, cut]
        congr 1
        omega
      · rw [List.flatten_cons, cut, List.drop_append_of_le_length (by omega)]
    · rw [if_neg (by omega), Nat.sub_sub] at ends
      obtain ⟨next, cuts, lengths, flat⟩ := induction (by omega) ends
      refine ⟨next, (if_neg inside).trans cuts, lengths, ?_⟩
      have passed : entry.drop (written - sum) = [] := List.drop_of_length_le (by omega)
      rw [flat, List.drop_append, passed, List.nil_append, Nat.sub_sub]

theorem middle_of_cutIov {next : List (List Byte)} (below : sum ≤ written)
    (distinct : iov.flatten.Nodup)
    (cuts : cutIov written iov sum = some next)
    (continues : next.flatten.head? = (iov.flatten.drop (written - sum)).head?) :
    ∃ rest, middle (written - sum) (iov.map List.length) = some rest := by
  induction iov generalizing sum with
  | nil => cases cuts
  | cons entry iov induction =>
    rw [List.flatten_cons] at distinct continues
    rw [cutIov] at cuts
    rw [List.map_cons, middle]
    split at cuts
    · rename_i inside
      cases cuts
      rw [List.flatten_cons, ← List.drop_append_of_le_length (by omega), List.head?_drop,
        List.head?_drop] at continues
      have place : written - sum < (entry ++ iov.flatten).length := by
        rw [List.length_append]
        omega
      have half : written - sum = sum + entry.length - written :=
        (List.getElem?_inj place distinct).mp continues.symm
      exact ⟨_, by rw [if_pos (by omega), if_pos (by omega)]⟩
    · rename_i outside
      have passed : entry.drop (written - sum) = [] := List.drop_of_length_le (by omega)
      rw [List.drop_append, passed, List.nil_append, Nat.sub_sub] at continues
      obtain ⟨rest, ends⟩ := induction (by omega) (List.nodup_append.mp distinct).2.1 cuts continues
      refine ⟨rest, ?_⟩
      rw [if_neg (by omega), Nat.sub_sub, ends]

theorem cutIov_map {Other : Type*} (f : Byte → Other) : cutIov written (iov.map (List.map f)) sum =
      (cutIov written iov sum).map (List.map (List.map f)) := by
  induction iov generalizing sum with
  | nil => rfl
  | cons entry iov induction =>
    rw [List.map_cons, cutIov, cutIov, List.length_map]
    split
    · rw [Option.map_some, List.map_cons, List.map_drop]
    · exact induction

end Cut

section Writes

variable {results : List WritevResult} {total : Nat} {iov : List (List Byte)}
  {accepted : List Byte}

theorem written_of_doWritev {count : Nat}
    (returns : doWritev (.written count :: results) total iov =
      some (accepted, 0)) (whole : total = iov.flatten.length)
    (fits : total < 2 ^ 64) :
    count ≤ total ∧ (count = total ∧ accepted = iov.flatten ∨
        count ≠ total ∧ ∃ next more, cutIov count iov 0 = some next ∧
          doWritev results (total - count) next = some (more, 0) ∧
          accepted = iov.flatten.take count ++ more) := by
  rw [doWritev] at returns
  obtain ⟨inside, returns⟩ := Option.ite_none_left_eq_some.mp returns
  have below : count ≤ total := by omega
  have left : (total + 2 ^ 64 - count) % 2 ^ 64 = total - count := by omega
  refine ⟨below, ?_⟩
  dsimp only at returns
  rw [left] at returns
  split at returns
  · cases returns
    refine .inl ⟨by omega, List.take_of_length_le (by omega)⟩
  · obtain ⟨next, cuts, returns⟩ := Option.bind_eq_some_iff.mp returns
    obtain ⟨⟨more, returned⟩, later, returns⟩ := Option.bind_eq_some_iff.mp returns
    cases returns
    exact .inr ⟨by omega, next, more, cuts, later, rfl⟩

theorem accepted_of_halves (halves : Halves results (iov.map List.length))
    (working : ∀ result ∈ results, result.Working)
    (whole : total = iov.flatten.length) (fits : total < 2 ^ 64)
    (returns : doWritev results total iov = some (accepted, 0)) :
    accepted = iov.flatten := by
  induction results generalizing total iov accepted with
  | nil => cases returns
  | cons result results induction =>
    have later : ∀ result ∈ results, result.Working := fun other member =>
      working other (List.mem_cons_of_mem _ member)
    cases result with
    | retry => exact induction halves later whole fits returns
    | failure errno => exact (working _ List.mem_cons_self).elim
    | written count =>
      obtain ⟨below, ⟨-, all⟩ | ⟨short, next, more, cuts, goes, parts⟩⟩ :=
        written_of_doWritev returns whole fits
      · exact all
      · rcases halves with complete | ⟨rest, ends, halves⟩
        · rw [← List.length_flatten] at complete
          exact absurd (complete.trans whole.symm) short
        · obtain ⟨cut, sameCut, lengths, flat⟩ := cutIov_of_middle (Nat.zero_le count) ends
          cases cuts.symm.trans sameCut
          rw [Nat.sub_zero] at flat
          have rest := induction (lengths ▸ halves) later
            (by rw [flat, List.length_drop, whole]) (by omega) goes
          rw [parts, rest, flat, List.take_append_drop]

theorem head?_take_append {bytes : List Byte} {count : Nat} (more : List Byte)
    (positive : 1 ≤ count) (inside : count ≤ bytes.length) :
    (bytes.take count ++ more).head? = bytes.head? := by
  obtain ⟨count, rfl⟩ := Nat.exists_eq_add_of_le' positive
  cases bytes with
  | nil => cases inside
  | cons byte bytes => rfl

theorem head_accepted (working : ∀ result ∈ results, result.Working)
    (returns : doWritev results total iov = some (accepted, 0)) :
    accepted.head? = iov.flatten.head? := by
  induction results with
  | nil => cases returns
  | cons result results induction =>
    cases result with
    | retry =>
      exact induction (fun other member =>
        working other (List.mem_cons_of_mem _ member)) returns
    | failure errno => exact (working _ List.mem_cons_self).elim
    | written count =>
      have positive : 1 ≤ count := working _ List.mem_cons_self
      rw [doWritev] at returns
      obtain ⟨inside, returns⟩ := Option.ite_none_left_eq_some.mp returns
      rw [not_lt] at inside
      dsimp only at returns
      split at returns
      · cases returns
        have first := head?_take_append [] positive inside
        rwa [List.append_nil] at first
      · obtain ⟨next, -, returns⟩ := Option.bind_eq_some_iff.mp returns
        obtain ⟨⟨more, returned⟩, -, returns⟩ := Option.bind_eq_some_iff.mp returns
        cases returns
        exact head?_take_append more positive inside

/-- Where the bytes are told apart, everything gets out in order only by writes that
end in the middle of entries. -/
theorem halves_of_accepted (distinct : iov.flatten.Nodup)
    (working : ∀ result ∈ results, result.Working)
    (whole : total = iov.flatten.length) (fits : total < 2 ^ 64)
    (returns : doWritev results total iov = some (iov.flatten, 0)) :
    Halves results (iov.map List.length) := by
  induction results generalizing total iov with
  | nil => trivial
  | cons result results induction =>
    have later : ∀ result ∈ results, result.Working := fun other member =>
      working other (List.mem_cons_of_mem _ member)
    cases result with
    | retry => exact induction distinct later whole fits returns
    | failure errno => trivial
    | written count =>
      obtain ⟨below, ⟨all, -⟩ | ⟨short, next, more, cuts, goes, parts⟩⟩ :=
        written_of_doWritev returns whole fits
      · left
        rw [all, whole, List.length_flatten]
      · right
        have moreEq : more = iov.flatten.drop count :=
          List.append_cancel_left (parts.symm.trans (List.take_append_drop count iov.flatten).symm)
        have continues := head_accepted later goes
        rw [moreEq] at continues
        obtain ⟨rest, ends⟩ := middle_of_cutIov (Nat.zero_le count) distinct cuts continues.symm
        obtain ⟨cut, sameCut, lengths, flat⟩ := cutIov_of_middle (Nat.zero_le count) ends
        cases cuts.symm.trans sameCut
        rw [Nat.sub_zero] at flat
        rw [moreEq, ← flat] at goes
        refine ⟨rest, ends, lengths ▸ induction ?_ later ?_ (by omega) goes⟩
        · rw [flat]
          exact distinct.sublist (List.drop_sublist _ _)
        · rw [flat, List.length_drop, whole]

theorem doWritev_map {Other : Type*} (f : Byte → Other) :
    doWritev results total (iov.map (List.map f)) = (doWritev results total iov).map fun taken =>
        (taken.1.map f, taken.2) := by
  induction results generalizing total iov with
  | nil => rfl
  | cons result results induction =>
    cases result with
    | retry => exact induction
    | failure errno => rfl
    | written count =>
      rw [doWritev, doWritev, ← List.map_flatten, List.length_map]
      split
      · rfl
      · dsimp only
        split
        · rw [Option.map_some, List.map_take]
        · rw [cutIov_map]
          cases cutIov count iov 0 with
          | none => rfl
          | some rest =>
            simp only [Option.map_some, Option.bind_eq_bind, Option.bind_some, induction]
            cases doWritev results ((total + 2 ^ 64 - count) % 2 ^ 64) rest with
            | none => rfl
            | some taken => simp

end Writes

section Positions

def positions (lengths : List Nat) : List (List Nat) :=
  lengths.splitLengths (List.range lengths.sum)

theorem flatten_positions (lengths : List Nat) :
    (positions lengths).flatten = List.range lengths.sum :=
  List.flatten_splitLengths _ _ (by rw [List.length_range])

theorem length_positions (lengths : List Nat) : (positions lengths).map List.length = lengths :=
  List.map_splitLengths_length _ _ (by rw [List.length_range])

theorem lengths_map {Other : Type*} (f : Byte → Other) (iov : List (List Byte)) :
    (iov.map (List.map f)).map List.length = iov.map List.length := by
  rw [List.map_map]
  exact List.map_congr_left fun entry _ => List.length_map f

theorem eq_map_positions (iov : List (List UInt8)) :
    ∃ f : Nat → UInt8, iov = (positions (iov.map List.length)).map (List.map f) := by
  refine ⟨fun position => iov.flatten.getD position 0, ?_⟩
  rw [List.eq_iff_flatten_eq]
  constructor
  · rw [← List.map_flatten, flatten_positions, ← List.length_flatten]
    refine List.ext_getElem (by simp) fun index inside _ => ?_
    simp [List.getElem?_eq_getElem inside]
  · rw [lengths_map, length_positions]

theorem eq_of_forall_map {first second : List Nat}
    (same : ∀ f : Nat → UInt8, first.map f = second.map f) : first = second := by
  have lengths : first.length = second.length := by
    have images := congrArg List.length (same fun _ => 0)
    rwa [List.length_map, List.length_map] at images
  refine List.ext_getElem lengths fun index inside₁ inside₂ => ?_
  by_contra different
  have images := congrArg (·[index]?)
    (same fun position => if position = second[index] then 1 else 0)
  simp [inside₁, inside₂, different] at images

/-- `do_writev` that returns 0 has handed over the bytes of the entries, whatever they
are, exactly when every write but the last one ends in the middle of an entry. -/
theorem doWritev_accepts_iff {lengths : List Nat} {results : List WritevResult}
    (fits : lengths.sum < 2 ^ 64) (working : ∀ result ∈ results, result.Working)
    (returned : ∃ (iov : List (List UInt8)) (accepted : List UInt8),
      iov.map List.length = lengths ∧
        doWritev results lengths.sum iov = some (accepted, 0)) :
    (∀ (iov : List (List UInt8)) (accepted : List UInt8),
      iov.map List.length = lengths →
      doWritev results lengths.sum iov = some (accepted, 0) →
      accepted = iov.flatten) ↔ Halves results lengths := by
  constructor
  · intro exact_
    obtain ⟨iov, accepted, rfl, returns⟩ := returned
    obtain ⟨f, same⟩ := eq_map_positions iov
    rw [same, doWritev_map, ← same] at returns
    obtain ⟨⟨taken, value⟩, runs, image⟩ := Option.map_eq_some_iff.mp returns
    cases image
    have total : (iov.map List.length).sum =
        (positions (iov.map List.length)).flatten.length := by
      rw [flatten_positions, List.length_range]
    have taken_eq : taken = (positions (iov.map List.length)).flatten := by
      refine eq_of_forall_map fun g => ?_
      rw [List.map_flatten]
      refine exact_ _ _ ?_ ?_
      · rw [lengths_map, length_positions]
      · rw [doWritev_map, runs]
        rfl
    have halves := halves_of_accepted
      (by rw [flatten_positions]; exact List.nodup_range) working total fits
      (taken_eq ▸ runs)
    rwa [length_positions] at halves
  · rintro halves iov accepted rfl returns
    exact accepted_of_halves halves working List.length_flatten.symm fits returns

/-- Four bytes, two of them at a time. -/
theorem doWritev_accepts_halves :
    doWritev [.retry, .written 2, .written 2] 4 [[1, 2, 3, 4]] =
        some (([1, 2, 3, 4] : List UInt8), 0) ∧
      ∀ (iov : List (List UInt8)) (accepted : List UInt8),
        iov.map List.length = [4] →
        doWritev [.retry, .written 2, .written 2] 4 iov = some (accepted, 0) →
        accepted = iov.flatten :=
  ⟨rfl, (doWritev_accepts_iff (by decide) (by decide)
    ⟨[[1, 2, 3, 4]], [1, 2, 3, 4], rfl, rfl⟩).mpr
      (.inr ⟨[2], rfl, .inl rfl⟩)⟩

/-- The second byte goes out twice, and the last one not at all. -/
theorem doWritev_repeats_byte :
    doWritev [.written 3, .written 1] 4 [[1, 2, 3, 4]] =
      some (([1, 2, 3, 2] : List UInt8), 0) :=
  rfl

end Positions

end MercuryFix
