import MercuryFix.ByteBlocks
import MercuryFix.DecimalText
import MercuryFix.FixMsgTypes

/-!
# Composing messages

A `FIXMessageTX` appends fields to a block of memory and exposes the partial
message for a push.  A write outside the block is modelled as `none`, and so is
a write through `pos_` behind a `realloc`, which leaves that pointer
indeterminate.
-/

namespace MercuryFix

open DecimalText ByteBlock

section Numbers

/-- The number of digits by the comparisons of `uint_to_str`. -/
def uintToStrSize (value : Nat) : Nat :=
  if 10000 ≤ value then
    if 10000000 ≤ value then
      if 1000000000 ≤ value then 10
      else if 100000000 ≤ value then 9
      else 8
    else if 1000000 ≤ value then 7
    else if 100000 ≤ value then 6
    else 5
  else if 100 ≤ value then
    if 1000 ≤ value then 4 else 3
  else if 10 ≤ value then 2
  else 1

/-- The digits that the loop of `uint_to_str` writes from right to left. -/
def digitLoop : Nat → Nat → List UInt8
  | 0, _ => []
  | rounds + 1, value =>
    if value / 10 = 0 then [digitByte (value % 10)]
    else digitLoop rounds (value / 10) ++ [digitByte (value % 10)]

def uintToStr (block : List UInt8) (str : Nat) (terminator : UInt8)
    (value : Nat) : Option (List UInt8 × Nat) :=
  if 10000000000 ≤ value then do
    let stop := str + (render value).length
    let printed ← memcpy block str (render value ++ [0])
    let closed ← memcpy printed stop [terminator]
    some (closed, stop)
  else do
    let stop := str + uintToStrSize value
    let digits := digitLoop 10 value
    let closed ← memcpy block stop [terminator]
    if stop < digits.length then none
    else do
      let written ← memcpy closed (stop - digits.length) digits
      some (written, stop)

theorem digitLoop_eq_render {rounds value : Nat} (positive : 0 < rounds)
    (small : value < 10 ^ rounds) : digitLoop rounds value = render value := by
  induction rounds generalizing value with
  | zero => cases positive
  | succ rounds induction =>
    rw [digitLoop, render_eq_if]
    by_cases single : value < 10
    · rw [if_pos (by omega), if_pos single, Nat.mod_eq_of_lt single]
    · have more : 0 < rounds := by
        rcases Nat.eq_zero_or_pos rounds with rfl | more
        · omega
        · exact more
      rw [pow_succ] at small
      rw [if_neg (by omega), if_neg single, induction more (by omega)]

theorem length_render_eq {value width : Nat} (lower : width = 0 ∨ 10 ^ width ≤ value)
    (upper : value < 10 ^ (width + 1)) :
    (render value).length = width + 1 := by
  have positive := length_render_pos value
  have atMost := (length_render_le_iff (Nat.succ_pos width)).mpr upper
  rcases lower with rfl | lower
  · omega
  · rcases Nat.eq_zero_or_pos width with rfl | wide
    · omega
    · have more := mt (length_render_le_iff wide).mp (not_lt.mpr lower)
      omega

theorem uintToStrSize_eq {value : Nat} (small : value < 10000000000) :
    uintToStrSize value = (render value).length := by
  have width (count : Nat) (lower : count = 0 ∨ 10 ^ count ≤ value)
      (upper : value < 10 ^ (count + 1)) :
      count + 1 = (render value).length :=
    (length_render_eq lower upper).symm
  unfold uintToStrSize
  split_ifs
  · exact width 9 (by omega) (by omega)
  · exact width 8 (by omega) (by omega)
  · exact width 7 (by omega) (by omega)
  · exact width 6 (by omega) (by omega)
  · exact width 5 (by omega) (by omega)
  · exact width 4 (by omega) (by omega)
  · exact width 3 (by omega) (by omega)
  · exact width 2 (by omega) (by omega)
  · exact width 1 (by omega) (by omega)
  · exact width 0 (by omega) (by omega)

theorem uintToStr_eq {block : List UInt8} {str value : Nat} {terminator : UInt8}
    (fits : str + (render value).length + 1 ≤ block.length) :
    uintToStr block str terminator value =
      some (blit block str (render value ++ [terminator]), str + (render value).length) := by
  unfold uintToStr
  by_cases large : 10000000000 ≤ value
  · have printed : memcpy block str (render value ++ [0]) =
        some (blit block str (render value ++ [0])) :=
      memcpy_of_fits (by simp; omega)
    have closed : memcpy (blit block str (render value ++ [0]))
        (str + (render value).length) [terminator] =
        some (blit block str (render value ++ [terminator])) := by
      rw [memcpy_of_fits (by rw [length_blit (by simp; omega)]; simp; omega),
        blit_overwrite (by omega) (by simp)]
    simp only [if_pos large, printed, closed, Option.bind_eq_bind, Option.bind_some]
  · have small : value < 10000000000 := not_le.mp large
    have closed : memcpy block (str + (render value).length) [terminator] =
        some (blit block (str + (render value).length) [terminator]) :=
      memcpy_of_fits (by simp; omega)
    have written : memcpy (blit block (str + (render value).length) [terminator]) str
        (render value) = some (blit block str (render value ++ [terminator])) := by
      rw [memcpy_of_fits (by rw [length_blit (by simp; omega)]; omega), blit_blit_front (by omega)]
    have inside : ¬ str + (render value).length < (render value).length := by
      omega
    simp only [if_neg large, uintToStrSize_eq small,
      digitLoop_eq_render (by omega : 0 < 10) small, closed,
      Option.bind_eq_bind, Option.bind_some, if_neg inside,
      Nat.add_sub_cancel, written]

theorem uintToStr_some {block next : List UInt8} {str stop value : Nat} {terminator : UInt8}
    (prints : uintToStr block str terminator value = some (next, stop)) :
    stop = str + (render value).length ∧ next.length = block.length := by
  unfold uintToStr at prints
  split at prints
  · simp only [Option.bind_eq_bind, Option.bind_eq_some_iff,
      Option.some.injEq, Prod.mk.injEq] at prints
    obtain ⟨printed, writes, closed, closes, rfl, rfl⟩ := prints
    exact ⟨rfl, (length_memcpy closes).trans (length_memcpy writes)⟩
  · rename_i small
    simp only [Option.bind_eq_bind, Option.bind_eq_some_iff] at prints
    obtain ⟨closed, closes, rest⟩ := prints
    split at rest
    · cases rest
    · simp only [Option.bind_eq_some_iff, Option.some.injEq, Prod.mk.injEq] at rest
      obtain ⟨written, writes, rfl, rfl⟩ := rest
      exact ⟨by rw [uintToStrSize_eq (by omega)],
        (length_memcpy writes).trans (length_memcpy closes)⟩

/-- The C string that `uint_to_str` leaves in an array of 24 characters. -/
def uintText (value : Nat) : Option (List UInt8) :=
  (uintToStr (List.replicate 24 0) 0 0 value).map fun written =>
    cString written.1

end Numbers

structure Timeval where
  sec : Int
  usec : Int
  deriving DecidableEq

def initialTxBufferSize : Nat := 2048

/-- `MAX_MSGTYPE_LENGTH`, the size of a cache line on the modelled platform. -/
def maxMsgtypeLength : Nat := 64

/-- The members of `FIXMessageTX`.  The block of `buf_size_` bytes is `buf`,
`pos` is the offset of `pos_` in it, and `msgType` is the C string in
`msg_type_`. -/
structure FixMessageTX where
  soh : UInt8
  ttl : Timeval
  msgType : List UInt8
  buf : List UInt8
  length : Nat
  pos : Nat
  sendingTimeAppended : Bool
  deriving DecidableEq

structure Exposed where
  ttl : Timeval
  len : Nat
  data : List UInt8
  msgType : List UInt8
  deriving DecidableEq

def Exposed.partialMsg (exposed : Exposed) : List UInt8 := exposed.data.take exposed.len

namespace FixMessageTX

/-- `init` with a `malloc` that succeeds. -/
def init (soh : UInt8) : FixMessageTX where
  soh := soh
  ttl := ⟨0, 0⟩
  msgType := []
  buf := soh :: List.replicate (initialTxBufferSize - 1) 0
  length := 1
  pos := 1
  sendingTimeAppended := false

/-- `append_field`, with its return value.  A block that is too small for the
guess of the source is reallocated, and `pos_` is not. -/
def appendField (tx : FixMessageTX) (tag : Nat) (value : List UInt8) :
    Option (FixMessageTX × Bool) :=
  let tx := { tx with
    sendingTimeAppended := tx.sendingTimeAppended || tag == 52 }
  if tag ≠ 35 then
    if 25 + value.length ≤ tx.buf.length then do
      let numbered ← uintToStr tx.buf tx.pos 61 tag
      let start := numbered.2 + 1
      let filled ← memcpy numbered.1 start value
      let stop := start + value.length
      let closed ← memcpy filled stop [tx.soh]
      some
        ({ tx with
            buf := closed
            pos := stop + 1
            length := tx.length + (stop + 1 - tx.pos) }, true)
    else none
  else if value.length < maxMsgtypeLength then
    some ({ tx with msgType := cString (value ++ [0]) }, true)
  else some (tx, false)

theorem appendField_frame {tx next : FixMessageTX} {tag : Nat} {value : List UInt8} {done : Bool}
    (appends : tx.appendField tag value = some (next, done)) :
    next.soh = tx.soh ∧
      next.sendingTimeAppended = (tx.sendingTimeAppended || tag == 52) := by
  simp only [appendField] at appends
  split at appends
  · split at appends
    · simp only [Option.bind_eq_bind, Option.bind_eq_some_iff,
        Option.some.injEq, Prod.mk.injEq] at appends
      obtain ⟨_, _, _, _, _, _, rfl, -⟩ := appends
      exact ⟨rfl, rfl⟩
    · cases appends
  · split at appends <;> cases appends <;> exact ⟨rfl, rfl⟩

/-- `expose`.  The second part is none when it returns 0 and leaves the
arguments as they were. -/
def expose (tx : FixMessageTX) : Option (FixMessageTX × Option Exposed) :=
  if tx.msgType ≠ [] ∧ tx.sendingTimeAppended = true then do
    let closed ← memcpy tx.buf tx.pos (ascii ['1', '0', '='])
    some
      ({ tx with
          buf := closed
          length := 1
          pos := 1
          sendingTimeAppended := false },
        some ⟨tx.ttl, tx.length + 3, closed, tx.msgType⟩)
  else some (tx, none)

end FixMessageTX

section Composition

def fieldText (soh : UInt8) (tag : Nat) (value : List UInt8) : List UInt8 :=
  render tag ++ 61 :: (value ++ [soh])

/-- The block starts with what has been composed so far. -/
structure Composing (tx : FixMessageTX) (text : List UInt8) : Prop where
  pos : tx.pos = text.length
  length : tx.length = text.length
  content : tx.buf.take text.length = text

theorem length_init (soh : UInt8) : (FixMessageTX.init soh).buf.length = initialTxBufferSize := by
  rw [FixMessageTX.init, List.length_cons, List.length_replicate]
  rfl

theorem length_fieldText (soh : UInt8) (tag : Nat) (value : List UInt8) :
    (fieldText soh tag value).length = (render tag).length + 1 + value.length + 1 := by
  simp only [fieldText, List.length_append, List.length_cons, List.length_nil]
  omega

theorem Composing.init (soh : UInt8) : Composing (FixMessageTX.init soh) [soh] := ⟨rfl, rfl, rfl⟩

variable {tx : FixMessageTX} {text value : List UInt8} {tag : Nat}

section

variable (composing : Composing tx text)
include composing

theorem Composing.fits : text.length ≤ tx.buf.length := by
  have length := congrArg List.length composing.content
  rw [List.length_take] at length
  omega

theorem Composing.appendField (other : tag ≠ 35) (guessed : 25 + value.length ≤ tx.buf.length)
    (room : text.length + (fieldText tx.soh tag value).length ≤ tx.buf.length) :
    tx.appendField tag value = some ({ tx with
        sendingTimeAppended := tx.sendingTimeAppended || tag == 52
        buf := blit tx.buf text.length (fieldText tx.soh tag value)
        pos := text.length + (fieldText tx.soh tag value).length
        length := text.length + (fieldText tx.soh tag value).length }, true) := by
  have width := length_fieldText tx.soh tag value
  rw [width] at room ⊢
  have numbered : uintToStr tx.buf text.length 61 tag =
      some (blit tx.buf text.length (render tag ++ [61]), text.length + (render tag).length) :=
    uintToStr_eq (by omega)
  have filled : memcpy (blit tx.buf text.length (render tag ++ [61]))
      (text.length + (render tag).length + 1) value =
      some (blit tx.buf text.length (render tag ++ [61] ++ value)) :=
    memcpy_blit (by simp; omega) (by omega)
  have whole : fieldText tx.soh tag value = render tag ++ [61] ++ value ++ [tx.soh] := by
    simp [fieldText]
  have closed : memcpy (blit tx.buf text.length (render tag ++ [61] ++ value))
      (text.length + (render tag).length + 1 + value.length) [tx.soh] =
      some (blit tx.buf text.length (fieldText tx.soh tag value)) := by
    rw [whole]
    exact memcpy_blit (by simp; omega) (by simp; omega)
  have stop : text.length + (render tag).length + 1 + value.length + 1 =
      text.length + ((render tag).length + 1 + value.length + 1) := by
    omega
  simp only [FixMessageTX.appendField, composing.pos, composing.length, other,
    ne_eq, not_false_eq_true, ↓reduceIte, guessed, numbered, filled, closed,
    Option.bind_eq_bind, Option.bind_some, stop, Nat.add_sub_cancel_left]

theorem Composing.append {soh : UInt8} (delimiter : tx.soh = soh) (tag : Nat) (value : List UInt8)
    (other : tag ≠ 35) (guessed : 25 + value.length ≤ tx.buf.length)
    (room : text.length + (fieldText soh tag value).length ≤ tx.buf.length) :
    ∃ next, tx.appendField tag value = some (next, true) ∧
      Composing next (text ++ fieldText soh tag value) ∧
      next.soh = soh ∧ next.msgType = tx.msgType ∧
      next.buf.length = tx.buf.length ∧
      next.sendingTimeAppended = (tx.sendingTimeAppended || tag == 52) := by
  subst delimiter
  refine ⟨_, composing.appendField other guessed room, ?_, rfl, rfl, length_blit (by omega), rfl⟩
  refine ⟨by rw [List.length_append], by rw [List.length_append], ?_⟩
  rw [List.length_append, take_blit (by omega), composing.content]

theorem Composing.appendField_overrun (other : tag ≠ 35)
    (overrun : tx.buf.length < text.length + (fieldText tx.soh tag value).length) :
    tx.appendField tag value = none := by
  have width := length_fieldText tx.soh tag value
  rw [Option.eq_none_iff_forall_ne_some]
  rintro ⟨next, done⟩ appends
  simp only [FixMessageTX.appendField, ne_eq, other, not_false_eq_true, ↓reduceIte] at appends
  split at appends
  · simp only [Option.bind_eq_bind, Option.bind_eq_some_iff] at appends
    obtain ⟨⟨numbered, stop⟩, prints, filled, fills, closed, closes, -⟩ := appends
    obtain ⟨rfl, printed⟩ := uintToStr_some prints
    have fits := fits_of_memcpy closes
    rw [length_memcpy fills, printed, composing.pos] at fits
    simp only [List.length_singleton] at fits
    omega
  · cases appends

theorem Composing.expose_eq (typed : tx.msgType ≠ []) (timed : tx.sendingTimeAppended = true)
    (room : text.length + 3 ≤ tx.buf.length) :
    tx.expose = some ({ tx with
          buf := blit tx.buf text.length (ascii ['1', '0', '='])
          length := 1
          pos := 1
          sendingTimeAppended := false },
        some ⟨tx.ttl, text.length + 3,
          blit tx.buf text.length (ascii ['1', '0', '=']), tx.msgType⟩) := by
  have width : (ascii ['1', '0', '=']).length = 3 := rfl
  have closed : memcpy tx.buf tx.pos (ascii ['1', '0', '=']) =
      some (blit tx.buf text.length (ascii ['1', '0', '='])) := by
    rw [composing.pos]
    exact memcpy_of_fits (by omega)
  rw [FixMessageTX.expose, if_pos ⟨typed, timed⟩, closed, composing.length]
  rfl

theorem Composing.closed :
    (blit tx.buf text.length (ascii ['1', '0', '='])).take (text.length + 3) =
      text ++ ascii ['1', '0', '='] := by
  have front : (blit tx.buf text.length (ascii ['1', '0', '='])).take
      (text.length + (ascii ['1', '0', '=']).length) =
        tx.buf.take text.length ++ ascii ['1', '0', '='] :=
    take_blit composing.fits
  rwa [composing.content] at front

theorem Composing.expose (typed : tx.msgType ≠ []) (timed : tx.sendingTimeAppended = true)
    (room : text.length + 3 ≤ tx.buf.length) :
    ∃ next data, tx.expose = some (next, some ⟨tx.ttl, text.length + 3, data, tx.msgType⟩) ∧
      data.take (text.length + 3) = text ++ ascii ['1', '0', '='] ∧
      next.soh = tx.soh ∧ next.buf.length = tx.buf.length := by
  have width : (ascii ['1', '0', '=']).length = 3 := rfl
  exact ⟨_, _, composing.expose_eq typed timed room, composing.closed, rfl, length_blit (by omega)⟩

theorem Composing.expose_overrun (typed : tx.msgType ≠ []) (timed : tx.sendingTimeAppended = true)
    (overrun : tx.buf.length < text.length + 3) : tx.expose = none := by
  have width : (ascii ['1', '0', '=']).length = 3 := rfl
  rw [FixMessageTX.expose, if_pos ⟨typed, timed⟩, composing.pos, memcpy_of_overrun (by omega)]
  rfl

end

end Composition

end MercuryFix
