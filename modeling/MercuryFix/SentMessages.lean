import MercuryFix.BitSmearing
import MercuryFix.FixMessageCompletion
import MercuryFix.FixMessageTX
import MercuryFix.MessageDatabase
import Mathlib.Data.List.Sort

/-!
# Stored messages

`get_sent_msgs` reads sent messages back from the database, `update_sendingtime`
gives one of them a new SendingTime, and `clone_from` hands it to a
`FIXMessageTX`.  The calendar is not modelled: a reading of the clock comes with
the text that `strftime` makes of it.
-/

namespace MercuryFix

open DecimalText ByteBlock

section TimeToLive

/-- The value of an `int` expression; an overflow wraps. -/
def wrapInt (value : Int) : Int := value.bmod (2 ^ 32)

def wrapLong (value : Int) : Int := value.bmod (2 ^ 64)

/-- `timeval_subtract`, with its return value.  The number of seconds to carry
is an `int`, and so is its product with a million. -/
def timevalSubtract (x y : Timeval) : Timeval × Bool :=
  let y : Timeval :=
    if x.usec < y.usec then
      let nsec := wrapInt ((wrapLong (y.usec - x.usec)).tdiv 1000000 + 1)
      ⟨y.sec + nsec, y.usec - wrapInt (1000000 * nsec)⟩
    else y
  let y : Timeval :=
    if 1000000 < wrapLong (x.usec - y.usec) then
      let nsec := wrapInt ((wrapLong (x.usec - y.usec)).tdiv 1000000)
      ⟨y.sec - nsec, y.usec + wrapInt (1000000 * nsec)⟩
    else y
  (⟨x.sec - y.sec, wrapLong (x.usec - y.usec)⟩, decide (x.sec < y.sec))

/-- `is_ttl_expired`, with the time that remains. -/
def isTtlExpired (ttl now : Timeval) : Timeval × Bool :=
  let subtracted := timevalSubtract ttl now
  let remaining : Timeval := if subtracted.2 then ⟨0, 0⟩ else subtracted.1
  (remaining, remaining.sec == 0 && remaining.usec == 0)

def expireTime (now ttl : Timeval) : Timeval :=
  let sec := now.sec + ttl.sec
  let usec := wrapLong (now.usec + ttl.usec)
  if 1000000 ≤ usec then ⟨sec + 1, usec - 1000000⟩ else ⟨sec, usec⟩

end TimeToLive

section SendingTime

/-- A reading of the clock for a SendingTime, with the seconds as
`YYYYMMDD-HH:MM:SS`. -/
structure ClockReading where
  date : List UInt8
  usec : Nat
  dateLength : date.length = 17
  noNul : (0 : UInt8) ∉ date
  inSecond : usec < 1000000

def sendingTime (version : FixVersion) (clock : ClockReading) : List UInt8 :=
  match version with
  | .fix40 | .fix41 => clock.date
  | _ => clock.date ++ 46 :: sprintf03u (clock.usec / 1000)

def sendingTimeTag (soh : UInt8) : List UInt8 := cString (soh :: ascii ['5', '2', '='])

/-- `strnstr` looks at no byte behind a NUL. -/
def strnstr (memory needle : List UInt8) (count : Nat) : Option Nat :=
  memmem needle (cString (memory.take count))

end SendingTime

/-- A `PartialMessage`.  The block behind `part_msg` has five more bytes than
the message. -/
structure StoredMessage where
  length : Nat
  msgType : List UInt8
  partMsg : List UInt8
  ttl : Timeval
  deriving DecidableEq

/-- `update_sendingtime`, with the C string that it leaves in
`orig_sendingtime`.  A message without the tag makes it write through a NULL
pointer. -/
def updateSendingtime (soh : UInt8) (version : FixVersion)
    (clock : ClockReading) (pmsg : StoredMessage) :
    Option (StoredMessage × List UInt8) := do
  let found ← strnstr pmsg.partMsg (sendingTimeTag soh) pmsg.length
  let pos := found + (sendingTimeTag soh).length
  let stamp := sendingTime version clock
  let updated ← memcpy pmsg.partMsg pos (stamp ++ [soh])
  some ({ pmsg with partMsg := updated }, cString (window pmsg.partMsg pos stamp.length))

def nextPowerOfTwo (k : Nat) : Nat :=
  if k = 0 then 1
  else ([1, 2, 4, 8, 16, 32].foldl (fun k i => k ||| k >>> i) (k - 1) + 1) % 2 ^ 64

/-- The shifts set all bits below the highest one, and the last step carries into the
bit above it. -/
theorem nextPowerOfTwo_eq {k : Nat} (positive : 1 ≤ k) (bound : k ≤ 2 ^ 63) :
    nextPowerOfTwo k = 2 ^ Nat.clog 2 k := by
  have smears : [1, 2, 4, 8, 16, 32].foldl (fun k i => k ||| k >>> i) (k - 1) =
      BitSmearing.smeared 6 (k - 1) := rfl
  have small : k - 1 < 2 ^ 2 ^ 6 := by omega
  have power : 2 ^ Nat.clog 2 k ≤ 2 ^ 63 :=
    Nat.pow_le_pow_right Nat.two_pos (Nat.clog_le_of_le_pow bound)
  rw [nextPowerOfTwo, if_neg (by omega), smears, BitSmearing.smeared_add_one small,
    Nat.sub_add_cancel positive, Nat.mod_eq_of_lt (by omega)]

theorem le_nextPowerOfTwo {k : Nat} (bound : k ≤ 2 ^ 63) : k ≤ nextPowerOfTwo k := by
  rcases Nat.eq_zero_or_pos k with rfl | positive
  · exact Nat.zero_le _
  · rw [nextPowerOfTwo_eq positive bound]
    exact Nat.le_pow_clog Nat.one_lt_two k

def grownSize (size length : Nat) : Nat := if size < length then nextPowerOfTwo length else size

theorem le_grownSize {length : Nat} (size : Nat) (bound : length ≤ 2 ^ 63) :
    size ≤ grownSize size length ∧ length ≤ grownSize size length := by
  have power := le_nextPowerOfTwo bound
  unfold grownSize
  split <;> omega

/-- `clone_from`, with its return value.  A `realloc` keeps what the block
held. -/
def FixMessageTX.cloneFrom (tx : FixMessageTX) (pmsg : StoredMessage) :
    Option (FixMessageTX × Bool) :=
  if pmsg.length = 0 then
    some ({ FixMessageTX.init tx.soh with ttl := pmsg.ttl }, true)
  else if pmsg.length < 3 then none
  else do
    let block := tx.buf ++ List.replicate (grownSize tx.buf.length pmsg.length - tx.buf.length) 0
    let copied ← memcpy block 0 (pmsg.partMsg.take (pmsg.length - 3))
    if pmsg.msgType.length < maxMsgtypeLength then
      some
        ({ tx with
            ttl := pmsg.ttl
            msgType := pmsg.msgType
            buf := copied
            length := pmsg.length - 3
            pos := pmsg.length - 3
            sendingTimeAppended := (strnstr pmsg.partMsg
              (sendingTimeTag tx.soh) (pmsg.length - 3)).isSome }, true)
    else some (FixMessageTX.init tx.soh, false)

section Reading

/-- What the clocks and the allocator answer while one row is resent: the time
in `is_ttl_expired`, the bytes of a fresh block behind the message, the
SendingTime, the time in `push_to_romeo`, and a fresh block of any size. -/
structure RowInput where
  readClock : Timeval
  spare : List UInt8
  stampClock : ClockReading
  pushClock : Timeval
  malloced : Nat → List UInt8
  spareLength : spare.length = 5
  mallocedLength : ∀ size, (malloced size).length = size

/-- The rows that the SELECT of `get_sent_msgs` yields, in the order of their
numbers. -/
def sentRows (table : List (UInt64 × SentRecord)) (start stop : Nat) :
    List (UInt64 × SentRecord) :=
  (table.filter fun row => decide (start ≤ signedSeqnum row.1) &&
    (stop == 0 || decide (signedSeqnum row.1 ≤ stop))).insertionSort
      fun first second => signedSeqnum first.1 ≤ signedSeqnum second.1

/-- The `PartialMessage` of one row.  A blob that is shorter than the length in
the row is read past its end. -/
def readRow (input : RowInput) (record : SentRecord) : Option StoredMessage :=
  let ttl : Timeval := ⟨signedSeqnum (UInt64.ofNat record.ttlSec),
    signedSeqnum (UInt64.ofNat record.ttlUsec)⟩
  let checked := isTtlExpired ttl input.readClock
  if checked.2 then some ⟨0, [], [], checked.1⟩
  else
    let length := record.len % 2 ^ 32
    if length ≤ record.partialMsg.length then
      some ⟨length, cString record.msgType, record.partialMsg.take length ++ input.spare, checked.1⟩
    else none

def readRows (inputs : Nat → RowInput) :
    Nat → List (UInt64 × SentRecord) → Option (List (UInt64 × StoredMessage))
  | _, [] => some []
  | n, row :: rest => do
      let message ← readRow (inputs n) row.2
      let others ← readRows inputs (n + 1) rest
      some ((row.1, message) :: others)

/-- `get_sent_msgs` with the number of every row; none stands for NULL. -/
def MsgDB.getSentMsgs {Path : Type*} (db : MsgDB Path SentRecord)
    (inputs : Nat → RowInput) (start stop : Nat) :
    Option (List (UInt64 × StoredMessage)) :=
  db.handle.bind fun path =>
    readRows inputs 0 (sentRows (db.files path) start stop)

variable {table : List (UInt64 × SentRecord)}

theorem mem_sentRows {start stop : Nat} {row : UInt64 × SentRecord}
    (member : row ∈ sentRows table start stop) :
    row ∈ table := by
  rw [sentRows, List.mem_insertionSort] at member
  exact List.mem_of_mem_filter member

def SentRecord.Whole (record : SentRecord) : Prop := record.len % 2 ^ 32 ≤ record.partialMsg.length

instance (record : SentRecord) : Decidable record.Whole := inferInstanceAs (Decidable (_ ≤ _))

theorem SentRecord.Whole.reads {record : SentRecord} (whole : record.Whole)
    (input : RowInput) : ∃ message, readRow input record = some message := by
  simp only [readRow, if_pos (show _ ≤ _ from whole)]
  split
  · exact ⟨_, rfl⟩
  · exact ⟨_, rfl⟩

theorem readRows_of_whole (whole : ∀ row ∈ table, row.2.Whole) (inputs : Nat → RowInput) (n : Nat) :
    ∃ rows, readRows inputs n table = some rows := by
  induction table generalizing n with
  | nil => exact ⟨[], rfl⟩
  | cons row table induction =>
    obtain ⟨message, here⟩ := (whole row List.mem_cons_self).reads (inputs n)
    obtain ⟨others, there⟩ := induction
      (fun row member => whole row (List.mem_cons_of_mem _ member)) (n + 1)
    refine ⟨(row.1, message) :: others, ?_⟩
    simp only [readRows, here, there, Option.bind_eq_bind, Option.bind_some]

theorem getElem?_readRows {inputs : Nat → RowInput} {n k : Nat}
    {rows : List (UInt64 × StoredMessage)} {row : UInt64 × SentRecord}
    (reads : readRows inputs n table = some rows) (listed : table[k]? = some row) :
    ∃ message, readRow (inputs (n + k)) row.2 = some message ∧
      rows[k]? = some (row.1, message) := by
  induction table generalizing n k rows with
  | nil => cases listed
  | cons first table induction =>
    simp only [readRows, Option.bind_eq_bind, Option.bind_eq_some_iff, Option.some.injEq] at reads
    obtain ⟨message, here, others, there, rfl⟩ := reads
    cases k with
    | zero =>
      cases listed
      exact ⟨message, here, rfl⟩
    | succ k =>
      obtain ⟨later, read, found⟩ := induction there listed
      refine ⟨later, ?_, found⟩
      rwa [show n + (k + 1) = n + 1 + k by omega]

end Reading

section Restamping

def stampLength : FixVersion → Nat
  | .fix40 | .fix41 => 17
  | _ => 21

theorem length_sendingTime (version : FixVersion) (clock : ClockReading) :
    (sendingTime version clock).length = stampLength version := by
  have millis : (sprintf03u (clock.usec / 1000)).length = 3 := by
    have inSecond := clock.inSecond
    have below : clock.usec / 1000 < 1000 := by omega
    simp [sprintf03u, below]
  cases version <;> simp [sendingTime, stampLength, clock.dateLength, millis]

theorem stampLength_le (version : FixVersion) : stampLength version ≤ 21 := by
  cases version <;> decide

theorem le_stampLength (version : FixVersion) : 17 ≤ stampLength version := by
  cases version <;> decide

/-- The first tag of a SendingTime is at `found`, and the block has room for a
new stamp behind it. -/
structure Restampable (soh : UInt8) (version : FixVersion)
    (pmsg : StoredMessage) (found : Nat) : Prop where
  tagged : strnstr pmsg.partMsg (sendingTimeTag soh) pmsg.length = some found
  room : found + (sendingTimeTag soh).length + stampLength version + 1 ≤ pmsg.partMsg.length

def origSendingTime (soh : UInt8) (version : FixVersion)
    (pmsg : StoredMessage) (found : Nat) : List UInt8 :=
  cString (window pmsg.partMsg (found + (sendingTimeTag soh).length) (stampLength version))

def restamped (soh : UInt8) (version : FixVersion) (clock : ClockReading)
    (pmsg : StoredMessage) (found : Nat) : StoredMessage :=
  { pmsg with
    partMsg := blit pmsg.partMsg (found + (sendingTimeTag soh).length)
      (sendingTime version clock ++ [soh]) }

variable {soh : UInt8} {version : FixVersion} {clock : ClockReading}
  {pmsg : StoredMessage} {found : Nat}

theorem length_origSendingTime :
    (origSendingTime soh version pmsg found).length ≤ stampLength version := by
  have shorter := (List.takeWhile_prefix (l := window pmsg.partMsg
    (found + (sendingTimeTag soh).length) (stampLength version)) (· != 0)).length_le
  exact shorter.trans (List.length_take_le _ _)

theorem Restampable.updates (restampable : Restampable soh version pmsg found) :
    updateSendingtime soh version clock pmsg =
      some (restamped soh version clock pmsg found, origSendingTime soh version pmsg found) := by
  have length := length_sendingTime version clock
  have fits : memcpy pmsg.partMsg (found + (sendingTimeTag soh).length)
      (sendingTime version clock ++ [soh]) =
      some (restamped soh version clock pmsg found).partMsg := by
    apply memcpy_of_fits
    have room := restampable.room
    rw [List.length_append, List.length_singleton]
    omega
  simp only [updateSendingtime, restampable.tagged, Option.bind_eq_bind,
    Option.bind_some, fits, length]
  rfl

theorem front_of_strnstr {memory needle : List UInt8} {count : Nat}
    (tagged : strnstr memory needle count = some found) :
    (cString (memory.take count)).take (found + needle.length) =
        memory.take (found + needle.length) ∧
      (0 : UInt8) ∉ memory.take (found + needle.length) := by
  have inside : found + needle.length ≤ (cString (memory.take count)).length := by
    have occurs := (occurs_of_memmem tagged).length_le
    have starts := le_length_of_memmem tagged
    rw [List.length_drop] at occurs
    omega
  have whole : cString (memory.take count) <+: memory :=
    (List.takeWhile_prefix _).trans (List.take_prefix _ memory)
  have front : (cString (memory.take count)).take (found + needle.length) =
      memory.take (found + needle.length) := by
    obtain ⟨rest, split⟩ := whole
    conv_rhs => rw [← split, List.take_append_of_le_length inside]
  refine ⟨front, fun member => noNul_cString (memory.take count) ?_⟩
  rw [← front] at member
  exact List.mem_of_mem_take member

theorem strnstr_again {memory other needle : List UInt8} {count bound : Nat}
    (tagged : strnstr memory needle count = some found)
    (alike : other.take (found + needle.length) = memory.take (found + needle.length))
    (covers : found + needle.length ≤ bound) :
    strnstr other needle bound = some found := by
  obtain ⟨front, noNul⟩ := front_of_strnstr tagged
  have early := memmem_take tagged (le_refl (found + needle.length))
  rw [front, ← alike] at early
  rw [← alike] at noNul
  have kept : ∀ byte ∈ other.take (found + needle.length), (byte != 0) = true := by
    intro byte member
    have different : byte ≠ 0 := fun zero => noNul (zero ▸ member)
    simp [different]
  have split : other.take bound = other.take (found + needle.length) ++
      (other.take bound).drop (found + needle.length) := by
    conv_lhs =>
      rw [← List.take_append_drop (found + needle.length) (other.take bound),
        List.take_take, Nat.min_eq_left covers]
  rw [strnstr, split, cString, List.takeWhile_append_of_pos kept]
  exact memmem_append early _

theorem Restampable.still_tagged (restampable : Restampable soh version pmsg found)
    (block : pmsg.partMsg.length = pmsg.length + 5) :
    strnstr (restamped soh version clock pmsg found).partMsg
      (sendingTimeTag soh) (pmsg.length - 3) = some found := by
  have room := restampable.room
  have stamp := le_stampLength version
  apply strnstr_again restampable.tagged
  · exact take_blit_before (by omega) le_rfl
  · omega

theorem cloneFrom_composing (tx : FixMessageTX) (pmsg : StoredMessage)
    (long : 3 ≤ pmsg.length) (covered : pmsg.length ≤ pmsg.partMsg.length)
    (small : pmsg.length ≤ 2 ^ 63) (short : pmsg.msgType.length < maxMsgtypeLength) :
    ∃ next, tx.cloneFrom pmsg = some (next, true) ∧
      Composing next (pmsg.partMsg.take (pmsg.length - 3)) ∧
      next.soh = tx.soh ∧ next.ttl = pmsg.ttl ∧ next.msgType = pmsg.msgType ∧
      next.buf.length = grownSize tx.buf.length pmsg.length ∧
      next.sendingTimeAppended = (strnstr pmsg.partMsg (sendingTimeTag tx.soh)
        (pmsg.length - 3)).isSome := by
  obtain ⟨kept, grown⟩ := le_grownSize tx.buf.length small
  generalize blockEq : tx.buf ++ List.replicate
    (grownSize tx.buf.length pmsg.length - tx.buf.length) 0 = block
  have size : block.length = grownSize tx.buf.length pmsg.length := by
    rw [← blockEq, List.length_append, List.length_replicate]
    omega
  have width : (pmsg.partMsg.take (pmsg.length - 3)).length = pmsg.length - 3 := by
    rw [List.length_take]
    omega
  have copies : memcpy block 0 (pmsg.partMsg.take (pmsg.length - 3)) =
      some (blit block 0 (pmsg.partMsg.take (pmsg.length - 3))) :=
    memcpy_of_fits (by omega)
  have clones : tx.cloneFrom pmsg = some ({ tx with
          ttl := pmsg.ttl
          msgType := pmsg.msgType
          buf := blit block 0 (pmsg.partMsg.take (pmsg.length - 3))
          length := pmsg.length - 3
          pos := pmsg.length - 3
          sendingTimeAppended := (strnstr pmsg.partMsg
            (sendingTimeTag tx.soh) (pmsg.length - 3)).isSome }, true) := by
    rw [FixMessageTX.cloneFrom, if_neg (by omega), if_neg (by omega)]
    simp only [blockEq, copies, Option.bind_eq_bind, Option.bind_some, short, ↓reduceIte]
  refine ⟨_, clones, ⟨width.symm, width.symm, ?_⟩, rfl, rfl, rfl, ?_, rfl⟩
  · have front : (blit block 0 (pmsg.partMsg.take (pmsg.length - 3))).take
        (0 + (pmsg.partMsg.take (pmsg.length - 3)).length) =
          block.take 0 ++ pmsg.partMsg.take (pmsg.length - 3) :=
      take_blit (Nat.zero_le _)
    rwa [Nat.zero_add, List.take_zero, List.nil_append] at front
  · rw [length_blit (by omega), size]

end Restamping

end MercuryFix
