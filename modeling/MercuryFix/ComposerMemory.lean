import MercuryFix.ComposerRuns

/-!
# The memory of a composer

`buf_` and `pos_` of a `FIXMessageTX` are two pointers.  A `realloc` may give
`buf_` another block and leaves `pos_` where it was.  Here a block has a name, so
that a pointer into a block that is gone can be told from one into the block that
has come in its place.  A write that is not inside the block of `buf_`, and a
difference of pointers that are not into one block, are `none`.
-/

namespace MercuryFix

open DecimalText ByteBlock TransitionSystem

structure Block where
  name : Nat
  bytes : List UInt8

structure Pointer where
  name : Nat
  offset : Nat

/-- The members of `FIXMessageTX` with its two pointers, none for NULL.
`allocations` counts the calls of `malloc` and `realloc` and is not in the
source. -/
structure TxObject where
  soh : UInt8
  ttl : Timeval
  msgType : List UInt8
  bufSize : Nat
  length : Nat
  sendingTimeAppended : Bool
  buf : Option Block
  pos : Option Pointer
  allocations : Nat

namespace TxObject

def constructed (soh : UInt8) : TxObject where
  soh := soh
  ttl := ⟨0, 0⟩
  msgType := []
  bufSize := 0
  length := 0
  sendingTimeAppended := false
  buf := none
  pos := none
  allocations := 0

def init (object : TxObject) : TxObject where
  soh := object.soh
  ttl := ⟨0, 0⟩
  msgType := []
  bufSize := initialTxBufferSize
  length := 1
  sendingTimeAppended := false
  buf := some ⟨object.allocations, object.soh :: List.replicate (initialTxBufferSize - 1) 0⟩
  pos := some ⟨object.allocations, 1⟩
  allocations := object.allocations + 1

/-- A `realloc` of `buf_` to more bytes.  `moves` says of each call whether the
block moves. -/
def realloc (moves : Nat → Bool) (object : TxObject) (size : Nat) : TxObject :=
  let held := (object.buf.map Block.bytes).getD []
  let name :=
    match object.buf with
    | none => object.allocations
    | some block =>
      if moves object.allocations then object.allocations else block.name
  { object with
    bufSize := size
    buf := some ⟨name, held ++ List.replicate (size - held.length) 0⟩
    allocations := object.allocations + 1 }

/-- The block that `pos_` points into and the place there, if that is the block
of `buf_`. -/
def target (object : TxObject) : Option (Block × Nat) :=
  match object.buf, object.pos with
  | some block, some pos =>
    if pos.name = block.name then some (block, pos.offset) else none
  | _, _ => none

/-- The branch of `append_field` with enough room by the guess of the source.
`start` is `pos_` as it was when the call began. -/
def writeField (object : TxObject) (start : Option Pointer) (tag : Nat)
    (value : List UInt8) : Option TxObject := do
  let (block, pos) ← object.target
  let numbered ← uintToStr block.bytes pos 61 tag
  let filled ← memcpy numbered.1 (numbered.2 + 1) value
  let stop := numbered.2 + 1 + value.length
  let closed ← memcpy filled stop [object.soh]
  let origin ← start
  if origin.name = block.name then
    some
      { object with
        buf := some { block with bytes := closed }
        pos := some ⟨block.name, stop + 1⟩
        length := object.length + (stop + 1 - origin.offset) }
  else none

/-- The jumps to the label `again` of `append_field`.  The block grows with each
of them, so that the size that is asked for bounds their number. -/
def growLoop (moves : Nat → Bool) (start : Option Pointer) (tag : Nat)
    (value : List UInt8) : Nat → TxObject → Option TxObject
  | 0, _ => none
  | rounds + 1, object =>
    if 25 + value.length ≤ object.bufSize then
      object.writeField start tag value
    else if object.bufSize = 0 then
      growLoop moves start tag value rounds object.init
    else
      growLoop moves start tag value rounds (object.realloc moves (2 * object.bufSize))

/-- `append_field`, with its return value. -/
def appendField (moves : Nat → Bool) (object : TxObject) (tag : Nat)
    (value : List UInt8) : Option (TxObject × Bool) :=
  let object := { object with
    sendingTimeAppended := object.sendingTimeAppended || tag == 52 }
  if tag ≠ 35 then
    (growLoop moves object.pos tag value (27 + value.length) object).map fun next => (next, true)
  else if value.length < maxMsgtypeLength then
    some ({ object with msgType := cString (value ++ [0]) }, true)
  else some (object, false)

def expose (object : TxObject) : Option (TxObject × Bool) :=
  if object.msgType ≠ [] ∧ object.sendingTimeAppended = true then do
    let (block, pos) ← object.target
    let closed ← memcpy block.bytes pos (ascii ['1', '0', '='])
    some
      ({ object with
          buf := some { block with bytes := closed }
          pos := some ⟨block.name, 1⟩
          length := 1
          sendingTimeAppended := false }, true)
  else some (object, false)

def cloneFrom (moves : Nat → Bool) (object : TxObject) (pmsg : StoredMessage) :
    Option (TxObject × Bool) :=
  if pmsg.length = 0 then some ({ object.init with ttl := pmsg.ttl }, true)
  else if pmsg.length < 3 then none
  else do
    let grown :=
      if object.bufSize < pmsg.length then
        object.realloc moves (nextPowerOfTwo pmsg.length)
      else object
    let block ← grown.buf
    let copied ← memcpy block.bytes 0 (pmsg.partMsg.take (pmsg.length - 3))
    if pmsg.msgType.length < maxMsgtypeLength then
      some
        ({ grown with
            ttl := pmsg.ttl
            msgType := pmsg.msgType
            buf := some { block with bytes := copied }
            pos := some ⟨block.name, pmsg.length - 3⟩
            length := pmsg.length - 3
            sendingTimeAppended := (strnstr pmsg.partMsg
              (sendingTimeTag grown.soh) (pmsg.length - 3)).isSome }, true)
    else some (grown.init, false)

end TxObject

/-- A stored message with its block: at least four bytes, all of them there. -/
structure HeldMessage where
  pmsg : StoredMessage
  long : 4 ≤ pmsg.length
  covered : pmsg.length ≤ pmsg.partMsg.length
  object : pmsg.partMsg.length < 2 ^ 63

inductive TxCall
  | init
  | append (tag : Nat) (value : List UInt8)
  | clone (message : HeldMessage)
  | expose

namespace TxObject

def call (moves : Nat → Bool) (object : TxObject) : TxCall → Option TxObject
  | .init => some object.init
  | .append tag value => (object.appendField moves tag value).map Prod.fst
  | .clone message => (object.cloneFrom moves message.pmsg).map Prod.fst
  | .expose => object.expose.map Prod.fst

/-- `pos_` points into the block of `buf_` at offset `length_`, and the block has
`buf_size_` bytes. -/
structure Anchored (object : TxObject) : Prop where
  size : ((object.buf.map Block.bytes).getD []).length = object.bufSize
  pos : object.pos = object.buf.map fun block => ⟨block.name, object.length⟩
  inside : object.length ≤ object.bufSize
  named : ∀ block ∈ object.buf, block.name < object.allocations

/-- What a call needs: no growth, room for the field behind what is composed, and
room for the tag of the checksum. -/
def Admits (object : TxObject) : TxCall → Prop
  | .append tag value => tag ≠ 35 →
      25 + value.length ≤ object.bufSize ∧
        object.length + (fieldText object.soh tag value).length ≤ object.bufSize
  | .expose => object.msgType ≠ [] → object.sendingTimeAppended = true →
      object.length + 3 ≤ object.bufSize
  | _ => True

def view (object : TxObject) : FixMessageTX where
  soh := object.soh
  ttl := object.ttl
  msgType := object.msgType
  buf := (object.buf.map Block.bytes).getD []
  length := object.length
  pos := object.length
  sendingTimeAppended := object.sendingTimeAppended

def holding (object : TxObject) (tx : FixMessageTX) : TxObject :=
  { object with
    ttl := tx.ttl
    msgType := tx.msgType
    length := tx.length
    sendingTimeAppended := tx.sendingTimeAppended
    buf := object.buf.map fun block => { block with bytes := tx.buf }
    pos := object.buf.map fun block => ⟨block.name, tx.pos⟩ }

variable {object : TxObject} {moves : Nat → Bool}

theorem anchored_constructed (soh : UInt8) : Anchored (constructed soh) where
  size := rfl
  pos := rfl
  inside := le_rfl
  named := by simp [constructed]

theorem anchored_init (object : TxObject) : Anchored object.init where
  size := length_init object.soh
  pos := rfl
  inside := Nat.le_of_ble_eq_true rfl
  named := by simp [init]

section

variable (anchored : Anchored object)
include anchored

theorem Anchored.length_text : (object.view.buf.take object.length).length = object.length := by
  have size : object.view.buf.length = object.bufSize := anchored.size
  have inside := anchored.inside
  rw [List.length_take]
  omega

theorem Anchored.composing : Composing object.view (object.view.buf.take object.length) := by
  have width := anchored.length_text
  exact ⟨width.symm, width.symm, by rw [width]⟩

theorem Anchored.target_eq {block : Block} (held : object.buf = some block) :
    object.target = some (block, object.length) := by
  have pos := anchored.pos
  rw [held, Option.map_some] at pos
  simp only [target, held, pos, ↓reduceIte]

theorem Anchored.exists_block (set : 0 < object.bufSize) : ∃ block, object.buf = some block := by
  cases held : object.buf with
  | none =>
    have size := anchored.size
    rw [held, Option.map_none, Option.getD_none, List.length_nil] at size
    omega
  | some block => exact ⟨block, rfl⟩

theorem Anchored.holding {tx : FixMessageTX} (set : 0 < object.bufSize) (pos : tx.pos = tx.length)
    (size : tx.buf.length = object.bufSize) (inside : tx.length ≤ object.bufSize) :
    Anchored (object.holding tx) := by
  obtain ⟨block, held⟩ := anchored.exists_block set
  exact
    { size := by simp [TxObject.holding, held, size]
      pos := by simp [TxObject.holding, held, pos]
      inside := inside
      named := by
        have named := anchored.named block held
        simpa [TxObject.holding, held] using named }

theorem Anchored.appendField_eq {tag : Nat} {value : List UInt8} (other : tag ≠ 35)
    (guessed : 25 + value.length ≤ object.bufSize) :
    object.appendField moves tag value = (object.view.appendField tag value).map fun result =>
        (object.holding result.1, result.2) := by
  obtain ⟨block, held⟩ := anchored.exists_block (by omega)
  have pos := anchored.pos
  have size := anchored.size
  rw [held, Option.map_some] at pos
  rw [held, Option.map_some, Option.getD_some] at size
  have room : 25 + value.length ≤ block.bytes.length := size ▸ guessed
  have first : 27 + value.length = 26 + value.length + 1 := by omega
  simp only [appendField, FixMessageTX.appendField, other, ne_eq, not_false_eq_true, ↓reduceIte,
    first, growLoop, guessed, writeField, view, TxObject.target, held, pos, room, Option.map_some,
    Option.getD_some, Option.bind_eq_bind, Option.bind_some, Option.map_bind]
  simp only [Function.comp_def, Option.map_bind, Option.map_some, TxObject.holding, held]

theorem Anchored.holding_view (set : 0 < object.bufSize) : object.holding object.view = object := by
  obtain ⟨block, held⟩ := anchored.exists_block set
  have pos := anchored.pos
  cases object
  simp_all [TxObject.holding, view]

theorem Anchored.expose_eq (set : 0 < object.bufSize) :
    object.expose = object.view.expose.map fun result =>
      (object.holding result.1, result.2.isSome) := by
  have unchanged := anchored.holding_view set
  obtain ⟨block, held⟩ := anchored.exists_block set
  have pos := anchored.pos
  rw [held, Option.map_some] at pos
  rw [expose, FixMessageTX.expose]
  by_cases ready : object.msgType ≠ [] ∧ object.sendingTimeAppended = true
  · simp only [if_pos ready, view, TxObject.target, held, pos, ↓reduceIte, Option.map_some,
      Option.getD_some, Option.bind_eq_bind, Option.bind_some, Option.map_bind, Function.comp_def,
      TxObject.holding, Option.isSome_some]
  · have viewed : ¬ (object.view.msgType ≠ [] ∧ object.view.sendingTimeAppended = true) := ready
    rw [if_neg ready, if_neg viewed, Option.map_some, unchanged]
    rfl

end

section Appending

variable {tag : Nat} {value : List UInt8}

theorem Anchored.append_room (anchored : Anchored object) (other : tag ≠ 35)
    (guessed : 25 + value.length ≤ object.bufSize)
    (room : object.length + (fieldText object.soh tag value).length ≤ object.bufSize) :
    ∃ next, object.call moves (.append tag value) = some next ∧ Anchored next := by
  have inside := anchored.inside
  have size : object.view.buf.length = object.bufSize := anchored.size
  have width := anchored.length_text
  have fits : (object.view.buf.take object.length).length +
      (fieldText object.view.soh tag value).length ≤ object.view.buf.length := by
    rw [width, size]
    exact room
  obtain ⟨tx, appends, composing, -, -, kept, -⟩ := anchored.composing.append
    rfl tag value other (size ▸ guessed) fits
  refine ⟨object.holding tx, ?_, ?_⟩
  · rw [call, anchored.appendField_eq other guessed, appends]
    rfl
  · apply anchored.holding (by omega)
    · rw [composing.pos, composing.length]
    · rw [kept, size]
    · rw [composing.length, List.length_append, width]
      exact room

theorem Anchored.append_overrun (anchored : Anchored object) (other : tag ≠ 35)
    (guessed : 25 + value.length ≤ object.bufSize)
    (overrun : object.bufSize < object.length + (fieldText object.soh tag value).length) :
    object.call moves (.append tag value) = none := by
  have inside := anchored.inside
  have size : object.view.buf.length = object.bufSize := anchored.size
  have overruns : object.view.buf.length < (object.view.buf.take object.length).length +
        (fieldText object.view.soh tag value).length := by
    rw [List.length_take, size, Nat.min_eq_left inside]
    exact overrun
  rw [call, anchored.appendField_eq other guessed,
    anchored.composing.appendField_overrun other overruns]
  rfl

theorem target_block {block current : Block} {pos : Nat}
    (found : object.target = some (current, pos))
    (held : object.buf = some block) : current = block := by
  unfold TxObject.target at found
  split at found
  · rename_i first second firstHeld secondHeld
    obtain ⟨-, same⟩ := Option.ite_none_right_eq_some.mp found
    cases same
    exact Option.some.inj (firstHeld.symm.trans held)
  · cases found

theorem realloc_held (object : TxObject) (moves : Nat → Bool) (size : Nat)
    {block : Block} (held : object.buf = some block) :
    ∃ grown, (object.realloc moves size).buf = some grown ∧
      grown.name = if moves object.allocations then object.allocations
        else block.name := by
  refine ⟨_, rfl, ?_⟩
  simp only [held]

/-- Once `start` is not into the block of `buf_`, no number of jumps helps. -/
theorem growLoop_stale {start : Option Pointer} {rounds : Nat} {block : Block}
    (held : object.buf = some block) (set : 0 < object.bufSize)
    (named : block.name < object.allocations) (stale : ∀ origin ∈ start, origin.name < block.name) :
    growLoop moves start tag value rounds object = none := by
  induction rounds generalizing object block with
  | zero => rfl
  | succ rounds induction =>
    rw [growLoop]
    split
    · rw [Option.eq_none_iff_forall_ne_some]
      intro next writes
      simp only [writeField, Option.bind_eq_bind, Option.bind_eq_some_iff,
        Option.ite_none_right_eq_some] at writes
      obtain ⟨⟨current, pos⟩, found, -, -, -, -, -, -, origin, started, same, -⟩ := writes
      have earlier := stale origin started
      rw [same, target_block found held] at earlier
      exact Nat.lt_irrefl _ earlier
    · obtain ⟨grown, grownHeld, name⟩ := object.realloc_held moves (2 * object.bufSize) held
      have between : block.name ≤ grown.name ∧ grown.name ≤ object.allocations := by
        rw [name]
        split <;> omega
      rw [if_neg (by omega)]
      apply induction grownHeld
      · change 0 < 2 * object.bufSize
        omega
      · change grown.name < object.allocations + 1
        omega
      · intro origin started
        have earlier := stale origin started
        omega

/-- A field that is too large for the guess of the source is not written into
the block of `buf_` when that has moved, nor when there was none. -/
theorem Anchored.append_grows (anchored : Anchored object) (other : tag ≠ 35)
    (grows : object.bufSize < 25 + value.length) (moved : moves object.allocations = true) :
    object.call moves (.append tag value) = none := by
  have older : ∀ origin ∈ object.pos, origin.name < object.allocations := by
    intro origin member
    rw [anchored.pos] at member
    obtain ⟨block, held, rfl⟩ := Option.map_eq_some_iff.mp member
    exact anchored.named block held
  have first : 27 + value.length = 26 + value.length + 1 := by omega
  rw [call, appendField]
  simp only [other, ne_eq, not_false_eq_true, ↓reduceIte, first, growLoop,
    not_le.mpr grows, Option.map_map]
  by_cases unset : object.bufSize = 0
  · rw [if_pos unset, growLoop_stale rfl (Nat.lt_of_sub_eq_succ rfl)
      (Nat.lt_succ_self _) older, Option.map_none]
  · obtain ⟨block, held⟩ := anchored.exists_block (by omega)
    set timed : TxObject := { object with
      sendingTimeAppended := object.sendingTimeAppended || tag == 52 }
    obtain ⟨grown, grownHeld, name⟩ := timed.realloc_held moves (2 * object.bufSize) held
    rw [if_pos moved] at name
    have larger : 0 < 2 * object.bufSize := by omega
    rw [if_neg unset, growLoop_stale grownHeld larger
      (name.trans_lt (Nat.lt_succ_self _)) (fun origin started =>
        (older origin started).trans_eq name.symm), Option.map_none]

end Appending

section

variable (anchored : Anchored object)
include anchored

theorem Anchored.expose_refused
    (refused : ¬ (object.msgType ≠ [] ∧ object.sendingTimeAppended = true)) :
    ∃ next, object.call moves .expose = some next ∧ Anchored next :=
  ⟨object, by rw [call, expose, if_neg refused, Option.map_some], anchored⟩

theorem Anchored.expose_room (typed : object.msgType ≠ [])
    (timed : object.sendingTimeAppended = true) (room : object.length + 3 ≤ object.bufSize) :
    ∃ next, object.call moves .expose = some next ∧ Anchored next := by
  have inside := anchored.inside
  have size : object.view.buf.length = object.bufSize := anchored.size
  have width := anchored.length_text
  have exposes := anchored.composing.expose_eq typed timed (by rw [width, size]; exact room)
  refine ⟨_, by rw [call, anchored.expose_eq (by omega), exposes]; rfl, ?_⟩
  apply anchored.holding (by omega) rfl
  · have tag : (ascii ['1', '0', '=']).length = 3 := rfl
    rw [length_blit (by omega), size]
  · change 1 ≤ object.bufSize
    omega

theorem Anchored.expose_overrun (typed : object.msgType ≠ [])
    (timed : object.sendingTimeAppended = true) (overrun : object.bufSize < object.length + 3) :
    object.call moves .expose = none := by
  have inside := anchored.inside
  have size : object.view.buf.length = object.bufSize := anchored.size
  by_cases set : 0 < object.bufSize
  · have overruns := anchored.composing.expose_overrun typed timed
      (by rw [List.length_take, size, Nat.min_eq_left inside]; exact overrun)
    rw [call, anchored.expose_eq set, overruns]
    rfl
  · rw [call, expose, if_pos ⟨typed, timed⟩]
    cases held : object.buf with
    | none => simp [TxObject.target, held]
    | some block =>
      have empty : block.bytes.length < object.length + (ascii ['1', '0', '=']).length := by
        have blockSize := anchored.size
        rw [held, Option.map_some, Option.getD_some] at blockSize
        rw [blockSize]
        exact overrun
      simp only [anchored.target_eq held, Option.bind_eq_bind, Option.bind_some,
        memcpy_of_overrun empty, Option.bind_none, Option.map_none]

theorem Anchored.exists_grown (moves : Nat → Bool) {length : Nat} (positive : 0 < length)
    (small : length ≤ 2 ^ 63) :
    ∃ grown block, grown = (if object.bufSize < length then
        object.realloc moves (nextPowerOfTwo length) else object) ∧
      grown.buf = some block ∧ block.bytes.length = grown.bufSize ∧
      block.name < grown.allocations ∧ length ≤ grown.bufSize := by
  have power := le_nextPowerOfTwo small
  by_cases grows : object.bufSize < length
  · rw [if_pos grows]
    refine ⟨_, _, rfl, rfl, ?_, ?_, power⟩
    · have size := anchored.size
      change ((object.buf.map Block.bytes).getD [] ++ List.replicate _ 0).length
        = nextPowerOfTwo length
      rw [List.length_append, List.length_replicate]
      omega
    · change _ < object.allocations + 1
      dsimp only
      cases held : object.buf with
      | none => exact Nat.lt_succ_self _
      | some block =>
        have named := anchored.named block held
        dsimp only
        split <;> omega
  · rw [if_neg grows]
    obtain ⟨block, held⟩ := anchored.exists_block (by omega)
    have size := anchored.size
    rw [held, Option.map_some, Option.getD_some] at size
    exact ⟨object, block, rfl, held, size, anchored.named block held, by omega⟩

theorem Anchored.clone (message : HeldMessage) :
    ∃ next, object.call moves (.clone message) = some next ∧ Anchored next := by
  obtain ⟨pmsg, long, covered, small⟩ := message
  obtain ⟨grown, block, grownEq, held, size, named, room⟩ :=
    anchored.exists_grown moves (by omega : 0 < pmsg.length) (by omega)
  have width : (pmsg.partMsg.take (pmsg.length - 3)).length = pmsg.length - 3 := by
    rw [List.length_take]
    omega
  have copies : memcpy block.bytes 0 (pmsg.partMsg.take (pmsg.length - 3)) =
      some (blit block.bytes 0 (pmsg.partMsg.take (pmsg.length - 3))) :=
    memcpy_of_fits (by omega)
  unfold call cloneFrom
  dsimp only
  rw [if_neg (by omega), if_neg (by omega)]
  simp only [← grownEq, held, copies, Option.bind_eq_bind, Option.bind_some]
  split
  · refine ⟨_, rfl, ?_⟩
    exact
      { size := by
          change (blit block.bytes 0 _).length = grown.bufSize
          rw [length_blit (by omega), size]
        pos := rfl
        inside := by
          change pmsg.length - 3 ≤ grown.bufSize
          omega
        named := by
          intro other member
          cases member
          exact named }
  · exact ⟨_, rfl, anchored_init grown⟩

theorem Anchored.call_of_admits {txCall : TxCall} (admits : object.Admits txCall) :
    ∃ next, object.call moves txCall = some next ∧ Anchored next := by
  cases txCall with
  | init => exact ⟨_, rfl, anchored_init object⟩
  | append tag value =>
    by_cases other : tag = 35
    · subst other
      rw [call, appendField, if_neg (not_not.mpr rfl)]
      split
      · exact ⟨_, rfl, ⟨anchored.size, anchored.pos, anchored.inside, anchored.named⟩⟩
      · exact ⟨_, rfl, ⟨anchored.size, anchored.pos, anchored.inside, anchored.named⟩⟩
    · obtain ⟨guessed, room⟩ := admits other
      exact anchored.append_room other guessed room
  | clone message => exact anchored.clone message
  | expose =>
    by_cases ready : object.msgType ≠ [] ∧ object.sendingTimeAppended = true
    · exact anchored.expose_room ready.1 ready.2 (admits ready.1 ready.2)
    · exact anchored.expose_refused ready

theorem Anchored.call_of_not_admits {txCall : TxCall} (refused : ¬ object.Admits txCall) :
    object.call (fun _ => true) txCall = none := by
  cases txCall with
  | init => exact absurd trivial refused
  | append tag value =>
    obtain ⟨other, short⟩ := Classical.not_imp.mp refused
    by_cases guessed : 25 + value.length ≤ object.bufSize
    · exact anchored.append_overrun other guessed (not_le.mp fun room => short ⟨guessed, room⟩)
    · exact anchored.append_grows other (not_le.mp guessed) rfl
  | clone message => exact absurd trivial refused
  | expose =>
    obtain ⟨typed, rest⟩ := Classical.not_imp.mp refused
    obtain ⟨timed, overrun⟩ := Classical.not_imp.mp rest
    exact anchored.expose_overrun typed timed (not_le.mp overrun)

end

def step (object : TxObject) (action : TxCall × (Nat → Bool)) :
    Option TxObject :=
  object.call action.2 action.1

/-- Every write of the run is inside the block of `buf_`, and `pos_` is at
offset `length_` of it behind every call. -/
def RunsSafely (soh : UInt8) (actions : List (TxCall × (Nat → Bool))) : Prop :=
  ∀ before, before <+: actions →
    ∃ object, run step (constructed soh) before = some object ∧ Anchored object

theorem runsSafely_of_guarded {soh : UInt8} {actions : List (TxCall × (Nat → Bool))}
    (guarded : Guarded step (fun object action => object.Admits action.1)
      (constructed soh) actions) : RunsSafely soh actions := by
  intro before front
  induction before using List.reverseRecOn with
  | nil => exact ⟨_, rfl, anchored_constructed soh⟩
  | append_singleton before action induction =>
    obtain ⟨after, split⟩ := front
    obtain ⟨object, runs, anchored⟩ := induction ⟨action :: after, by rw [← split]; simp⟩
    have admits := guarded before action after object (by rw [← split]; simp) runs
    obtain ⟨next, steps, kept⟩ := anchored.call_of_admits admits
    exact ⟨next, run_append_eq_some.mpr ⟨object, runs,
      run_cons_eq_some.mpr ⟨next, steps, rfl⟩⟩, kept⟩

/-- A sequence of calls is safe whatever `realloc` does exactly when each of them
is made on an object that admits it. -/
theorem runsSafely_iff (soh : UInt8) (calls : List TxCall) :
    (∀ actions, actions.map Prod.fst = calls → RunsSafely soh actions) ↔
      ∀ actions, actions.map Prod.fst = calls →
        Guarded step (fun object action => object.Admits action.1)
          (constructed soh) actions := by
  constructor
  · intro safe actions same before action after object split runs
    by_contra refused
    -- The same run, with a block that moves in the call that is not admitted.
    let moving := before ++ (action.1, fun _ => true) :: after
    have alike : moving.map Prod.fst = calls := by
      rw [← same, split]
      simp [moving]
    obtain ⟨reached, reaches, anchored⟩ := safe moving alike before
      (List.prefix_append _ _)
    obtain ⟨final, ends, -⟩ := safe moving alike
      (before ++ [(action.1, fun _ => true)]) ⟨after, by simp [moving]⟩
    obtain ⟨middle, first, last⟩ := run_append_eq_some.mp ends
    rw [runs] at reaches first
    cases reaches
    cases first
    obtain ⟨next, steps, -⟩ := run_cons_eq_some.mp last
    rw [step, anchored.call_of_not_admits refused] at steps
    cases steps
  · intro guarded actions same
    exact runsSafely_of_guarded (guarded actions same)

/-- A second field that fits into the size of the block but not behind the first
one, and a field for which the block grows and moves. -/
theorem composer_overruns :
    run step (constructed 1) [(.init, fun _ => false),
        (.append 58 (List.replicate 1200 65), fun _ => false),
        (.append 58 (List.replicate 1200 65), fun _ => false)] = none ∧
      run step (constructed 1) [(.init, fun _ => false),
        (.append 58 (List.replicate 2030 65), fun _ => true)] = none := by
  decide +kernel

theorem exists_cloneFrom_of_grows (moves : Nat → Bool) {object : TxObject}
    {pmsg : StoredMessage} (long : 3 ≤ pmsg.length) (grows : object.bufSize < pmsg.length)
    {block : Block} (grown : (object.realloc moves (nextPowerOfTwo pmsg.length)).buf = some block)
    (room : pmsg.length ≤ block.bytes.length) :
    ∃ result, object.cloneFrom moves pmsg = some result := by
  have copies : memcpy block.bytes 0 (pmsg.partMsg.take (pmsg.length - 3)) =
      some (blit block.bytes 0 (pmsg.partMsg.take (pmsg.length - 3))) := by
    apply memcpy_of_fits
    rw [List.length_take]
    omega
  rw [cloneFrom, if_neg (by omega), if_neg (by omega), if_pos grows]
  dsimp only
  rw [grown]
  simp only [Option.bind_eq_bind, Option.bind_some, copies]
  split
  · exact ⟨_, rfl⟩
  · exact ⟨_, rfl⟩

end TxObject

/-- The size is rounded up to the smallest power of two that is not less, so that the
block has room for the message and `clone_from` stays in it. -/
theorem nextPowerOfTwo_least (k : Nat) (positive : 1 ≤ k) (bound : k ≤ 2 ^ 63) :
    (∃ exponent, nextPowerOfTwo k = 2 ^ exponent ∧ k ≤ 2 ^ exponent ∧
      ∀ other, k ≤ 2 ^ other → 2 ^ exponent ≤ 2 ^ other) ∧
    ∀ (moves : Nat → Bool) (object : TxObject) (pmsg : StoredMessage),
      pmsg.length = k → object.bufSize < k →
      ∃ block, (object.realloc moves (nextPowerOfTwo pmsg.length)).buf = some block ∧
        pmsg.length ≤ block.bytes.length ∧
        (3 ≤ k → ∃ result, object.cloneFrom moves pmsg = some result) := by
  constructor
  · refine ⟨Nat.clog 2 k, nextPowerOfTwo_eq positive bound,
      Nat.le_pow_clog Nat.one_lt_two k, fun other le => ?_⟩
    exact Nat.pow_le_pow_right Nat.two_pos (Nat.clog_le_of_le_pow le)
  · rintro moves object pmsg rfl grows
    have power := le_nextPowerOfTwo bound
    refine ⟨_, rfl, ?_, fun long => ?_⟩
    · rw [List.length_append, List.length_replicate]
      omega
    · apply TxObject.exists_cloneFrom_of_grows moves long grows rfl
      rw [List.length_append, List.length_replicate]
      omega

/-- The largest size, and a message of five bytes. -/
theorem nextPowerOfTwo_least_five :
    nextPowerOfTwo (2 ^ 63) = 2 ^ 63 ∧
    ∃ result, (TxObject.constructed 1).cloneFrom (fun _ => true)
      ⟨5, [65], [49, 61, 49, 48, 61], ⟨0, 0⟩⟩ = some result := by
  refine ⟨by decide, ?_⟩
  obtain ⟨_, -, -, clones⟩ := (nextPowerOfTwo_least 5 (by decide) (by decide)).2
    (fun _ => true) (TxObject.constructed 1)
    ⟨5, [65], [49, 61, 49, 48, 61], ⟨0, 0⟩⟩ rfl (by decide)
  exact clones (by decide)

end MercuryFix
