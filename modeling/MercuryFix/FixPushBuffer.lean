import MercuryFix.FixMessageFormat

/-!
# Push buffers

A push buffer starts with the length of the partial message, its type and its
time to live.  The partial message stands behind the reserved head.  A write
outside the buffer is modelled as `none`.
-/

namespace MercuryFix

open DecimalText ByteBlock

section Marshal

def bigEndian : Nat → Nat → List UInt8
  | 0, _ => []
  | width + 1, number =>
    UInt8.ofNat (number / 256 ^ width) :: bigEndian width number

def ofBigEndian (bytes : List UInt8) : Nat :=
  bytes.foldl (fun number byte => number * 256 + byte.toNat) 0

def setu32 (number : Nat) : List UInt8 := bigEndian 4 number

def getu32 (buffer : List UInt8) : Nat := ofBigEndian (buffer.take 4)

def setu64 (number : Nat) : List UInt8 := bigEndian 8 number

def getu64 (buffer : List UInt8) : Nat := ofBigEndian (buffer.take 8)

@[simp]
theorem length_bigEndian (width number : Nat) : (bigEndian width number).length = width := by
  induction width with
  | zero => rfl
  | succ width induction => simp [bigEndian, induction]

theorem foldl_bigEndian (width number start : Nat) : (bigEndian width number).foldl
        (fun number byte => number * 256 + byte.toNat) start =
      start * 256 ^ width + number % 256 ^ width := by
  induction width generalizing start with
  | zero => simp [bigEndian, Nat.mod_one]
  | succ width induction =>
    have split := Nat.mod_pow_succ (x := number) (b := 256) (k := width)
    have digit : (UInt8.ofNat (number / 256 ^ width)).toNat = number / 256 ^ width % 256 := by
      simp
    rw [bigEndian, List.foldl_cons, induction, digit, split, pow_succ]
    ring

theorem ofBigEndian_bigEndian (width number : Nat) :
    ofBigEndian (bigEndian width number) = number % 256 ^ width := by
  rw [ofBigEndian, foldl_bigEndian]
  simp

theorem getu32_setu32_append (number : Nat) (rest : List UInt8) :
    getu32 (setu32 number ++ rest) = number % 2 ^ 32 := by
  rw [getu32, setu32, List.take_left' (length_bigEndian 4 number), ofBigEndian_bigEndian]
  norm_num

end Marshal

section Layout

def fixBufferReservedHead : Nat := 256

def fixBufferReservedTail : Nat := 4

def msgTypeMaxLength : Nat := 16

def msgTypeStringOffset : Nat := 4

def tvSecOffset : Nat := 4 + msgTypeMaxLength

def tvUsecOffset : Nat := 4 + msgTypeMaxLength + 8

def partialMsgOffset : Nat := msgTypeStringOffset + fixBufferReservedHead

/-- What a caller pushes, with the time to live made absolute.  The type is a
C string. -/
structure PushRequest where
  data : List UInt8
  msgType : List UInt8
  ttlSec : Nat
  ttlUsec : Nat
  noNul : (0 : UInt8) ∉ msgType
  deriving DecidableEq

def getLengthOfPartialMsg (buffer : List UInt8) : Nat := getu32 buffer

def getTtl (buffer : List UInt8) : Nat × Nat :=
  (getu64 (buffer.drop tvSecOffset), getu64 (buffer.drop tvUsecOffset))

/-- The writes of `push` and `session_push` into an acquired entry. -/
def fillEntry (request : PushRequest) (memory : List UInt8) :
    Option (List UInt8) := do
  let withLength ← memcpy memory 0 (setu32 request.data.length)
  let withType ← memcpy withLength msgTypeStringOffset (request.msgType ++ [0])
  let withSec ← memcpy withType tvSecOffset (setu64 request.ttlSec)
  let withTtl ← memcpy withSec tvUsecOffset (setu64 request.ttlUsec)
  memcpy withTtl partialMsgOffset request.data

structure Prepared (request : PushRequest) (buffer : List UInt8) : Prop where
  room : partialMsgOffset + request.data.length + fixBufferReservedTail ≤ buffer.length
  length : window buffer 0 4 = setu32 request.data.length
  msgType : window buffer msgTypeStringOffset (request.msgType.length + 1) = request.msgType ++ [0]
  sec : window buffer tvSecOffset 8 = setu64 request.ttlSec
  usec : window buffer tvUsecOffset 8 = setu64 request.ttlUsec
  data : window buffer partialMsgOffset request.data.length = request.data

variable {request : PushRequest} {buffer : List UInt8}

theorem Prepared.getLengthOfPartialMsg (prepared : Prepared request buffer) :
    getLengthOfPartialMsg buffer = request.data.length % 2 ^ 32 := by
  have read : buffer.take 4 = setu32 request.data.length := prepared.length
  rw [MercuryFix.getLengthOfPartialMsg, getu32, read, setu32, ofBigEndian_bigEndian]
  rfl

theorem Prepared.getTtl (prepared : Prepared request buffer) :
    getTtl buffer = (request.ttlSec % 2 ^ 64, request.ttlUsec % 2 ^ 64) := by
  have sec : (buffer.drop tvSecOffset).take 8 = setu64 request.ttlSec := prepared.sec
  have usec : (buffer.drop tvUsecOffset).take 8 = setu64 request.ttlUsec := prepared.usec
  rw [MercuryFix.getTtl, getu64, getu64, sec, usec, setu64, setu64,
    ofBigEndian_bigEndian, ofBigEndian_bigEndian]
  rfl

theorem Prepared.cString_msgType (prepared : Prepared request buffer) :
    cString (buffer.drop msgTypeStringOffset) = request.msgType :=
  cString_of_window request.noNul prepared.msgType

theorem fillEntry_prepared {memory : List UInt8} (short : request.msgType.length < msgTypeMaxLength)
    (room : partialMsgOffset + request.data.length + fixBufferReservedTail ≤ memory.length) :
    ∃ buffer, fillEntry request memory = some buffer ∧
      Prepared request buffer ∧ buffer.length = memory.length := by
  have reserved : partialMsgOffset = 260 := rfl
  have tail : fixBufferReservedTail = 4 := rfl
  have typeField : msgTypeMaxLength = 16 := rfl
  have width : (request.msgType ++ [0]).length = request.msgType.length + 1 := by
    rw [List.length_append, List.length_singleton]
  have length32 : (setu32 request.data.length).length = 4 := length_bigEndian _ _
  have length64 (number : Nat) : (setu64 number).length = 8 := length_bigEndian _ _
  obtain ⟨withLength, writes, lengthWritten⟩ : ∃ next,
      memcpy memory 0 (setu32 request.data.length) = some next ∧ _ :=
    memcpy_written (by omega)
  have size := lengthWritten.length
  obtain ⟨withType, writesType, typeWritten⟩ : ∃ next,
      memcpy withLength 4 (request.msgType ++ [0]) = some next ∧ _ :=
    memcpy_written (by omega)
  have typeSize := typeWritten.length
  obtain ⟨withSec, writesSec, secWritten⟩ : ∃ next,
      memcpy withType 20 (setu64 request.ttlSec) = some next ∧ _ :=
    memcpy_written (by rw [length64]; omega)
  have secSize := secWritten.length
  obtain ⟨withTtl, writesUsec, usecWritten⟩ : ∃ next,
      memcpy withSec 28 (setu64 request.ttlUsec) = some next ∧ _ :=
    memcpy_written (by rw [length64]; omega)
  have usecSize := usecWritten.length
  obtain ⟨buffer, writesData, dataWritten⟩ : ∃ next,
      memcpy withTtl 260 request.data = some next ∧ _ :=
    memcpy_written (by omega)
  have dataSize := dataWritten.length
  have secLength := length64 request.ttlSec
  have usecLength := length64 request.ttlUsec
  refine ⟨buffer, ?_, ?_, by omega⟩
  · simp only [fillEntry, writes, msgTypeStringOffset, tvSecOffset, msgTypeMaxLength, tvUsecOffset,
      partialMsgOffset, fixBufferReservedHead, Option.bind_eq_bind, Option.bind_some, writesType,
      writesSec, writesUsec, writesData]
  -- Each write leaves what the earlier ones have written.
  · refine ⟨by omega, ?_, ?_, ?_, ?_, dataWritten.here⟩
    · rw [dataWritten.before (by omega), usecWritten.before (by omega),
        secWritten.before (by omega), typeWritten.before (by omega),
        ← length32]
      exact lengthWritten.here
    · change window buffer 4 _ = _
      rw [dataWritten.before (by omega), usecWritten.before (by omega),
        secWritten.before (by omega), ← width]
      exact typeWritten.here
    · change window buffer 20 _ = _
      rw [dataWritten.before (by omega), usecWritten.before (by omega), ← secLength]
      exact secWritten.here
    · change window buffer 28 _ = _
      rw [dataWritten.before (by omega), ← usecLength]
      exact usecWritten.here

end Layout

end MercuryFix
