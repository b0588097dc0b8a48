import Mathlib.Data.List.Basic
import Mathlib.Data.List.TakeWhile

/-!
# Writing into and searching in fixed blocks

`blit` overwrites part of a block, as `memcpy` does, and keeps everything
else.  `memmem` is the position of the first occurrence of a pattern.
-/

namespace ByteBlock

variable {Cell : Type*}

/-- Overwrite the cells of `block` from `offset` on by `source`. -/
def blit (block : List Cell) (offset : Nat) (source : List Cell) :
    List Cell :=
  block.take offset ++ source ++ block.drop (offset + source.length)

variable {offset : Nat}

theorem length_blit {block source : List Cell} (fits : offset + source.length ≤ block.length) :
    (blit block offset source).length = block.length := by
  simp [blit]
  omega

theorem take_blit {block source : List Cell} (fits : offset ≤ block.length) :
    (blit block offset source).take (offset + source.length) = block.take offset ++ source := by
  have width : (block.take offset ++ source).length = offset + source.length := by
    simp [Nat.min_eq_left fits]
  rw [blit, List.take_append_of_le_length (by omega), List.take_of_length_le (by omega)]

theorem drop_blit {block source : List Cell} (fits : offset ≤ block.length) :
    (blit block offset source).drop (offset + source.length) =
      block.drop (offset + source.length) := by
  have width : (block.take offset ++ source).length = offset + source.length := by
    simp [Nat.min_eq_left fits]
  rw [blit, List.drop_append_of_le_length (by omega),
    List.drop_of_length_le (by omega), List.nil_append]

theorem blit_append {front middle back source : List Cell} (same : source.length = middle.length) :
    blit (front ++ (middle ++ back)) front.length source = front ++ (source ++ back) := by
  rw [blit, List.take_left, same, ← List.append_assoc front middle back,
    ← List.length_append, List.drop_left, List.append_assoc]

theorem blit_blit {block first second : List Cell} (fits : offset + first.length ≤ block.length) :
    blit (blit block offset first) (offset + first.length) second =
      blit block offset (first ++ second) := by
  have dropEq : (blit block offset first).drop (offset + first.length + second.length) =
      block.drop (offset + first.length + second.length) := by
    rw [← List.drop_drop, drop_blit (by omega), List.drop_drop]
  rw [blit, take_blit (by omega), dropEq, blit]
  simp [List.append_assoc, Nat.add_assoc]

variable {position : Nat}

theorem take_blit_before {block source : List Cell} (fits : offset ≤ block.length)
    (before : position ≤ offset) :
    (blit block offset source).take position = block.take position := by
  have front : (block.take offset).length = offset := by
    simp [Nat.min_eq_left fits]
  rw [blit, List.append_assoc, List.take_append_of_le_length (by omega),
    List.take_take, Nat.min_eq_left before]

theorem drop_blit_here {block source : List Cell} (fits : offset ≤ block.length) :
    (blit block offset source).drop offset = source ++ block.drop (offset + source.length) := by
  have front : (block.take offset).length = offset := by
    simp [Nat.min_eq_left fits]
  rw [blit, List.append_assoc, List.drop_append_of_le_length (by omega),
    List.drop_of_length_le (by omega), List.nil_append]

theorem blit_blit_front {block first second : List Cell}
    (fits : offset + first.length ≤ block.length) :
    blit (blit block (offset + first.length) second) offset first =
      blit block offset (first ++ second) := by
  rw [blit, take_blit_before fits (by omega), drop_blit_here fits, blit,
    List.length_append, Nat.add_assoc]
  simp only [List.append_assoc]

theorem blit_again {block old new : List Cell} (fits : offset ≤ block.length)
    (covers : old.length ≤ new.length) :
    blit (blit block offset old) offset new = blit block offset new := by
  have front : (blit block offset old).take offset = block.take offset :=
    take_blit_before fits (Nat.le_refl offset)
  have back : (blit block offset old).drop (offset + new.length) =
      block.drop (offset + new.length) := by
    rw [show offset + new.length = offset + old.length + (new.length - old.length) by omega,
      ← List.drop_drop, drop_blit fits, List.drop_drop]
  calc
    blit (blit block offset old) offset new = (blit block offset old).take offset ++ new ++
          (blit block offset old).drop (offset + new.length) := rfl
    _ = blit block offset new := by rw [front, back, blit]

theorem blit_overwrite {block front old new : List Cell}
    (fits : offset + front.length ≤ block.length) (covers : old.length ≤ new.length) :
    blit (blit block offset (front ++ old)) (offset + front.length) new =
      blit block offset (front ++ new) := by
  have inside : offset + front.length ≤ (blit block offset front).length := by
    rw [length_blit fits]
    exact fits
  rw [← blit_blit fits, blit_again inside covers, blit_blit fits]

@[simp]
theorem blit_nil (block : List Cell) (offset : Nat) : blit block offset [] = block := by
  simp [blit]

theorem blit_zero {block source : List Cell} :
    blit block 0 source = source ++ block.drop source.length := by
  simp [blit]

theorem blit_singleton {block : List Cell} {cell : Cell} (inside : offset < block.length) :
    blit block offset [cell] = block.set offset cell := by
  rw [blit, List.set_eq_take_append_cons_drop, if_pos inside]
  simp

/-- `memcpy` into a block; `none` when it leaves the block. -/
def memcpy (block : List Cell) (offset : Nat) (source : List Cell) :
    Option (List Cell) :=
  if offset + source.length ≤ block.length then
    some (blit block offset source)
  else none

theorem memcpy_of_fits {block source : List Cell} (fits : offset + source.length ≤ block.length) :
    memcpy block offset source = some (blit block offset source) :=
  if_pos fits

theorem length_memcpy {block source next : List Cell}
    (copies : memcpy block offset source = some next) :
    next.length = block.length := by
  rw [memcpy] at copies
  split at copies
  · cases copies
    exact length_blit ‹_›
  · cases copies

theorem fits_of_memcpy {block source next : List Cell}
    (copies : memcpy block offset source = some next) :
    offset + source.length ≤ block.length := by
  rw [memcpy] at copies
  split at copies
  · assumption
  · cases copies

theorem take_memcpy_before {block source next : List Cell}
    (copies : memcpy block offset source = some next) (before : position ≤ offset) :
    next.take position = block.take position := by
  have fits := fits_of_memcpy copies
  rw [memcpy_of_fits fits] at copies
  cases copies
  exact take_blit_before (by omega) before

theorem memcpy_blit {block first second : List Cell} (behind : position = offset + first.length)
    (fits : position + second.length ≤ block.length) :
    memcpy (blit block offset first) position second =
      some (blit block offset (first ++ second)) := by
  have length : (blit block offset first).length = block.length := length_blit (by omega)
  rw [memcpy_of_fits (by omega), behind, blit_blit (by omega)]

theorem memcpy_of_overrun {block source : List Cell}
    (overrun : block.length < offset + source.length) :
    memcpy block offset source = none :=
  if_neg (by omega)

/-- A copy over the end of an earlier one, such as the terminator that a C
function leaves behind its text. -/
theorem memcpy_overwrite {block front old new : List Cell}
    (behind : position = offset + front.length) (covers : old.length ≤ new.length) :
    ((memcpy block offset (front ++ old)).bind fun next =>
      memcpy next position new) = memcpy block offset (front ++ new) := by
  have oldWidth : (front ++ old).length = front.length + old.length := List.length_append
  have newWidth : (front ++ new).length = front.length + new.length := List.length_append
  by_cases fits : offset + (front ++ new).length ≤ block.length
  · have first : offset + (front ++ old).length ≤ block.length := by omega
    have second : position + new.length ≤ (blit block offset (front ++ old)).length := by
      rw [length_blit first]
      omega
    rw [memcpy_of_fits first, memcpy_of_fits fits, Option.bind_some,
      memcpy_of_fits second, behind, blit_overwrite (by omega) covers]
  · rw [memcpy_of_overrun (Nat.lt_of_not_le fits), Option.bind_eq_none_iff]
    intro next copies
    apply memcpy_of_overrun
    rw [length_memcpy copies]
    omega

def window (block : List Cell) (offset count : Nat) : List Cell := (block.drop offset).take count

theorem window_add (block : List Cell) (offset first second : Nat) :
    window block offset (first + second) =
      window block offset first ++ window block (offset + first) second := by
  rw [window, window, window, List.take_add, List.drop_drop]

theorem take_window (block : List Cell) (offset first second : Nat) :
    (window block offset (first + second)).take first = window block offset first := by
  rw [window, window, List.take_take, Nat.min_eq_left (Nat.le_add_right _ _)]

theorem drop_window (block : List Cell) (offset first second : Nat) :
    (window block offset (first + second)).drop first = window block (offset + first) second := by
  rw [window, window, List.drop_take, Nat.add_sub_cancel_left, List.drop_drop]

theorem window_blit_same {block source : List Cell} (fits : offset + source.length ≤ block.length) :
    window (blit block offset source) offset source.length = source := by
  have front : (block.take offset).length = offset := by
    rw [List.length_take]
    omega
  unfold window blit
  rw [List.append_assoc, List.drop_append_of_le_length (by omega),
    List.drop_of_length_le (by omega), List.nil_append, List.take_left]

theorem window_blit_before {block source : List Cell} {count : Nat}
    (fits : offset + source.length ≤ block.length) (before : position + count ≤ offset) :
    window (blit block offset source) position count = window block position count := by
  have front : (block.take offset).length = offset := by
    rw [List.length_take]
    omega
  unfold window blit
  rw [List.take_drop, List.take_drop, List.append_assoc,
    List.take_append_of_le_length (by omega), List.take_take,
    Nat.min_eq_left (by omega)]

theorem window_blit_behind {block source : List Cell} {count : Nat}
    (fits : offset + source.length ≤ block.length) (behind : offset + source.length ≤ position) :
    window (blit block offset source) position count = window block position count := by
  have inside : offset ≤ block.length := by omega
  have same : (blit block offset source).drop (offset + source.length) =
      block.drop (offset + source.length) := drop_blit inside
  unfold window
  obtain ⟨more, rfl⟩ := Nat.exists_eq_add_of_le behind
  rw [← List.drop_drop, same, List.drop_drop]

structure Written (block : List Cell) (offset : Nat) (source next : List Cell) :
    Prop where
  length : next.length = block.length
  here : window next offset source.length = source
  before : ∀ {position count}, position + count ≤ offset →
    window next position count = window block position count
  behind : ∀ {position count}, offset + source.length ≤ position →
    window next position count = window block position count

theorem memcpy_written {block source : List Cell} (fits : offset + source.length ≤ block.length) :
    ∃ next, memcpy block offset source = some next ∧ Written block offset source next :=
  ⟨blit block offset source, memcpy_of_fits fits,
    { length := length_blit fits
      here := window_blit_same fits
      before := window_blit_before fits
      behind := window_blit_behind fits }⟩

theorem takeWhile_dropWhile_append {keep : Cell → Bool} {front back : List Cell}
    (kept : ∀ cell ∈ front, keep cell = true) (stops : ∀ cell ∈ back.head?, keep cell = false) :
    (front ++ back).takeWhile keep = front ∧ (front ++ back).dropWhile keep = back := by
  rw [List.takeWhile_append_of_pos kept, List.dropWhile_append_of_pos kept]
  cases back with
  | nil => simp
  | cons cell back =>
    have stop := stops cell rfl
    simp [stop]

/-- The C string at the start of a memory area. -/
def cString (memory : List UInt8) : List UInt8 := memory.takeWhile (· != 0)

theorem noNul_cString (memory : List UInt8) : (0 : UInt8) ∉ cString memory := by
  intro member
  simpa using List.mem_takeWhile_imp member

theorem cString_eq_self {text : List UInt8} (noNul : (0 : UInt8) ∉ text) : cString text = text := by
  rw [cString, List.takeWhile_eq_self_iff]
  intro byte member
  have different : byte ≠ 0 := fun zero => noNul (zero ▸ member)
  simp [different]

theorem cString_of_noNul {text rest : List UInt8} (noNul : (0 : UInt8) ∉ text) :
    cString (text ++ 0 :: rest) = text := by
  have kept : ∀ byte ∈ text, (byte != 0) = true := by
    intro byte member
    have different : byte ≠ 0 := fun zero => noNul (zero ▸ member)
    simp [different]
  rw [cString, List.takeWhile_append_of_pos kept]
  simp

theorem cString_terminated (text : List UInt8) : cString (text ++ [0]) = cString text := by
  induction text with
  | nil => rfl
  | cons byte text induction =>
    unfold cString at induction ⊢
    rw [List.cons_append, List.takeWhile_cons, List.takeWhile_cons, induction]

theorem cString_of_window {memory text : List UInt8} (noNul : (0 : UInt8) ∉ text)
    (held : window memory offset (text.length + 1) = text ++ [0]) :
    cString (memory.drop offset) = text := by
  have front : (memory.drop offset).take (text.length + 1) = text ++ [0] := held
  rw [← List.take_append_drop (text.length + 1) (memory.drop offset), front, List.append_assoc]
  exact cString_of_noNul noNul

variable [DecidableEq Cell]

/-- The position of the first occurrence of `needle`, if there is one. -/
def memmem (needle : List Cell) : List Cell → Option Nat
  | [] => if needle = [] then some 0 else none
  | cell :: rest =>
    if needle.isPrefixOf (cell :: rest) then some 0
    else (memmem needle rest).map (· + 1)

theorem memmem_of_here {needle text : List Cell}
    (here : needle <+: text) : memmem needle text = some 0 := by
  cases text with
  | nil => simp [memmem, List.prefix_nil.mp here]
  | cons cell rest =>
    rw [memmem, if_pos (List.isPrefixOf_iff_prefix.mpr here)]

theorem memmem_skip {first : Cell} {pattern skipped text : List Cell} (absent : first ∉ skipped) :
    memmem (first :: pattern) (skipped ++ text) =
      (memmem (first :: pattern) text).map (· + skipped.length) := by
  induction skipped with
  | nil => simp
  | cons cell skipped induction =>
    have other : first ≠ cell := fun equal =>
      absent (by simp [equal])
    have later := induction fun member =>
      absent (List.mem_cons_of_mem cell member)
    simp only [List.cons_append, memmem]
    rw [if_neg (by simp [other]), later, Option.map_map]
    congr 1

theorem memmem_step {needle text : List Cell} {cell : Cell}
    (elsewhere : ¬ needle <+: cell :: text) :
    memmem needle (cell :: text) = (memmem needle text).map (· + 1) := by
  rw [memmem, if_neg (fun here =>
    elsewhere (List.isPrefixOf_iff_prefix.mp here))]

theorem occurs_of_memmem {needle text : List Cell} (found : memmem needle text = some position) :
    needle <+: text.drop position := by
  induction text generalizing position with
  | nil =>
    simp only [memmem] at found
    split at found
    · rename_i empty
      simp [empty]
    · simp at found
  | cons cell rest induction =>
    simp only [memmem] at found
    split at found
    · rename_i here
      cases found
      exact List.isPrefixOf_iff_prefix.mp here
    · obtain ⟨later, foundLater, rfl⟩ := Option.map_eq_some_iff.mp found
      simpa using induction foundLater

theorem le_length_of_memmem {needle text : List Cell} (found : memmem needle text = some position) :
    position ≤ text.length := by
  induction text generalizing position with
  | nil =>
    simp only [memmem] at found
    split at found <;> cases found
    exact le_rfl
  | cons cell rest induction =>
    simp only [memmem] at found
    split at found
    · cases found
      exact Nat.zero_le _
    · obtain ⟨later, foundLater, rfl⟩ := Option.map_eq_some_iff.mp found
      exact Nat.succ_le_succ (induction foundLater)

theorem memmem_take {needle text : List Cell} (found : memmem needle text = some position)
    {bound : Nat} (covers : position + needle.length ≤ bound) :
    memmem needle (text.take bound) = some position := by
  induction text generalizing position bound with
  | nil => simpa using found
  | cons cell rest induction =>
    cases bound with
    | zero =>
      have empty : needle = [] := List.eq_nil_of_length_eq_zero (by omega)
      subst empty
      simp [memmem] at found
      simp [memmem, ← found]
    | succ bound =>
      by_cases here : needle <+: cell :: rest
      · rw [memmem_of_here here] at found
        cases found
        apply memmem_of_here
        exact List.prefix_take_iff.mpr ⟨here, by omega⟩
      · rw [memmem_step here] at found
        obtain ⟨later, foundLater, rfl⟩ := Option.map_eq_some_iff.mp found
        have notHere : ¬ needle <+: cell :: rest.take bound :=
          fun shorter => here (shorter.trans (List.take_prefix (bound + 1) (cell :: rest)))
        rw [List.take_succ_cons, memmem_step notHere, induction foundLater (by omega)]
        rfl

theorem memmem_append {needle text : List Cell} (found : memmem needle text = some position)
    (rest : List Cell) :
    memmem needle (text ++ rest) = some position := by
  induction text generalizing position with
  | nil =>
    simp only [memmem] at found
    split at found
    · cases found
      rename_i empty
      exact memmem_of_here (empty ▸ List.nil_prefix)
    · cases found
  | cons cell text induction =>
    by_cases here : needle <+: cell :: text
    · rw [memmem_of_here here] at found
      rw [memmem_of_here (here.trans (List.prefix_append _ _)), found]
    · rw [memmem_step here] at found
      obtain ⟨later, foundLater, rfl⟩ := Option.map_eq_some_iff.mp found
      have short : needle.length ≤ (cell :: text).length := by
        have inside := (occurs_of_memmem foundLater).length_le
        rw [List.length_drop] at inside
        rw [List.length_cons]
        omega
      have elsewhere : ¬ needle <+: cell :: (text ++ rest) :=
        fun longer => here (List.prefix_of_prefix_length_le longer
          (List.prefix_append (cell :: text) rest) short)
      rw [List.cons_append, memmem_step elsewhere, induction foundLater]
      rfl

theorem isSome_memmem_iff {needle text : List Cell} :
    (memmem needle text).isSome ↔ needle <:+: text := by
  constructor
  · intro found
    obtain ⟨position, foundAt⟩ := Option.isSome_iff_exists.mp found
    exact (occurs_of_memmem foundAt).isInfix.trans (List.drop_suffix position text).isInfix
  · rintro ⟨front, back, rfl⟩
    induction front with
    | nil =>
      rw [List.nil_append, memmem_of_here (List.prefix_append _ _)]
      rfl
    | cons cell front induction =>
      by_cases here : needle <+: cell :: (front ++ needle ++ back)
      · rw [List.cons_append, List.cons_append, memmem_of_here here]
        rfl
      · rw [List.cons_append, List.cons_append, memmem_step here, Option.isSome_map]
        exact induction

end ByteBlock
