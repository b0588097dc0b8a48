import MercuryFix.FixPushBuffer

/-!
# The completion of a message

`complete_FIX_message` puts the header in front of a partial message and the
checksum behind it, in place, and hands the partial message to the database
under its number first.
-/

namespace MercuryFix

open DecimalText ByteBlock

/-- The parts of `pusher_thread_args_t` that the completion reads.  `fixStart`
is a C string. -/
structure PusherArgs where
  fixStart : List UInt8
  soh : UInt8

/-- `get_digit_count`: the first power of ten above the number. -/
def getDigitCount (number : Nat) : Nat :=
  match (List.range' 1 19).find? (fun count => number < 10 ^ count) with
  | some count => count
  | none => if number ≤ 2 ^ 64 - 1 then 20 else 0

structure SentRecord where
  seqnum : Nat
  len : Nat
  ttlSec : Nat
  ttlUsec : Nat
  partialMsg : List UInt8
  msgType : List UInt8
  deriving DecidableEq

/-- What `complete_FIX_message` leaves behind: the next sequence number, its
call of `store_sent_msg`, the buffer, and the message in it. -/
structure CompletedMessage where
  msgSeqNumber : Nat
  stored : SentRecord
  buffer : List UInt8
  start : Nat
  msgLength : Nat
  deriving DecidableEq

def CompletedMessage.bytes (completed : CompletedMessage) : List UInt8 :=
  window completed.buffer completed.start completed.msgLength

/-- `body_length`, without the tag of the checksum that ends the partial
message. -/
def bodyLengthOf (msgType : List UInt8) (number msgLength : Nat) : Nat :=
  (3 + msgType.length + 1 + 3 + getDigitCount number + msgLength - 3) % 2 ^ 64

def totalPrefixLength (args : PusherArgs) (msgType : List UInt8) (number bodyLength : Nat) : Nat :=
  args.fixStart.length + getDigitCount bodyLength + 1 + msgType.length + 1 +
    getDigitCount number + 6

def headerText (args : PusherArgs) (msgType : List UInt8) (number bodyLength : Nat) : List UInt8 :=
  args.fixStart ++ render bodyLength ++
    args.soh :: (ascii ['3', '5', '='] ++ msgType ++
      args.soh :: (ascii ['3', '4', '='] ++ render number))

def completeFIXMessage (args : PusherArgs) (msgSeqNumber : Nat)
    (buffer : List UInt8) (msgLength : Nat) : Option CompletedMessage :=
  let number := (msgSeqNumber + 1) % 2 ^ 64
  let msgType := cString (buffer.drop msgTypeStringOffset)
  let ttl := getTtl buffer
  let bodyLength := bodyLengthOf msgType number msgLength
  let total := totalPrefixLength args msgType number bodyLength
  let start := partialMsgOffset - total
  if partialMsgOffset < total then none
  else do
    let headed ← memcpy buffer start (headerText args msgType number bodyLength ++ [0])
    let delimited ← memcpy headed partialMsgOffset [args.soh]
    let checksum := getFIXChecksum (window delimited start (total + msgLength - 3))
    let closed ← memcpy delimited (partialMsgOffset + msgLength)
      (uintToStrZeroPadded 4 args.soh checksum).1
    some
      { msgSeqNumber := number
        stored := ⟨number, msgLength, ttl.1, ttl.2,
          window buffer partialMsgOffset msgLength, msgType⟩
        buffer := closed
        start := start
        msgLength := msgLength + total + 4 }

theorem completeFIXMessage_stored {args : PusherArgs} {msgSeqNumber : Nat}
    {buffer : List UInt8} {msgLength : Nat} {completed : CompletedMessage}
    (completes : completeFIXMessage args msgSeqNumber buffer msgLength = some completed) :
    completed.msgSeqNumber = (msgSeqNumber + 1) % 2 ^ 64 ∧
      completed.stored = ⟨(msgSeqNumber + 1) % 2 ^ 64, msgLength,
        (getTtl buffer).1, (getTtl buffer).2,
        window buffer partialMsgOffset msgLength,
        cString (buffer.drop msgTypeStringOffset)⟩ := by
  simp only [completeFIXMessage] at completes
  split at completes
  · cases completes
  · simp only [Option.bind_eq_bind, Option.bind_eq_some_iff, Option.some.injEq] at completes
    obtain ⟨_, _, _, _, _, _, rfl⟩ := completes
    exact ⟨rfl, rfl⟩

def completeAll (args : PusherArgs) :
    Nat → List (List UInt8) → Option (List CompletedMessage)
  | _, [] => some []
  | msgSeqNumber, buffer :: buffers => do
      let completed ← completeFIXMessage args msgSeqNumber buffer (getLengthOfPartialMsg buffer)
      let later ← completeAll args completed.msgSeqNumber buffers
      some (completed :: later)

section Digits

theorem getDigitCount_eq {number : Nat} (fits : number < 2 ^ 64) :
    getDigitCount number = (render number).length := by
  have positive := length_render_pos number
  unfold getDigitCount
  split
  · rename_i count found
    rw [List.find?_range'_eq_some, List.mem_range'_1] at found
    obtain ⟨below, member, earlier⟩ := found
    have upper : (render number).length ≤ count :=
      (length_render_le_iff member.1).mpr (of_decide_eq_true below)
    by_contra different
    have shorter : number < 10 ^ (render number).length :=
      (length_render_le_iff positive).mp (le_refl _)
    have notBelow := earlier (render number).length positive (by omega)
    simp [shorter] at notBelow
  · rename_i missing
    rw [List.find?_range'_eq_none] at missing
    have upper : (render number).length ≤ 20 := (length_render_le_iff (by omega)).mpr (by omega)
    have lower : ¬ (render number).length ≤ 19 := by
      rw [length_render_le_iff (by omega)]
      have last := missing 19 (by omega) (by omega)
      simpa using last
    rw [if_pos (by omega)]
    omega

theorem length_render_le_twenty {number : Nat} (fits : number < 2 ^ 64) :
    (render number).length ≤ 20 :=
  (length_render_le_iff (by omega)).mpr (by omega)

theorem bodyLengthOf_lt (msgType : List UInt8) (number msgLength : Nat) :
    bodyLengthOf msgType number msgLength < 2 ^ 64 :=
  Nat.mod_lt _ (by omega)

theorem totalPrefixLength_le_longest {args : PusherArgs} {msgType : List UInt8}
    {number bodyLength : Nat} (startFits : args.fixStart.length < 32)
    (short : msgType.length < msgTypeMaxLength) (numberFits : number < 2 ^ 64)
    (lengthFits : bodyLength < 2 ^ 64) :
    totalPrefixLength args msgType number bodyLength ≤ 94 := by
  have typeField : msgTypeMaxLength = 16 := rfl
  have numberDigits := length_render_le_twenty numberFits
  have lengthDigits := length_render_le_twenty lengthFits
  rw [totalPrefixLength, getDigitCount_eq numberFits, getDigitCount_eq lengthFits]
  omega

theorem totalPrefixLength_le {args : PusherArgs} {msgType : List UInt8}
    {number bodyLength : Nat} (startFits : args.fixStart.length < 32)
    (short : msgType.length < msgTypeMaxLength) (numberFits : number < 2 ^ 64)
    (lengthFits : bodyLength < 2 ^ 64) :
    totalPrefixLength args msgType number bodyLength ≤ partialMsgOffset :=
  (totalPrefixLength_le_longest startFits short numberFits lengthFits).trans (by decide)

theorem length_headerText {args : PusherArgs} {msgType : List UInt8}
    {number bodyLength : Nat} (numberFits : number < 2 ^ 64) (lengthFits : bodyLength < 2 ^ 64) :
    (headerText args msgType number bodyLength).length =
      totalPrefixLength args msgType number bodyLength := by
  rw [totalPrefixLength, getDigitCount_eq numberFits, getDigitCount_eq lengthFits]
  simp [headerText, ascii]
  omega

end Digits

section Completion

variable {args : PusherArgs} {buffer msgType partialMsg : List UInt8}

def uncheckedText (args : PusherArgs) (msgType partialMsg : List UInt8)
    (number : Nat) : List UInt8 :=
  headerText args msgType number
      (bodyLengthOf msgType number partialMsg.length) ++
    partialMsg.set 0 args.soh

/-- The complete message.  The checksum covers everything in front of its
tag. -/
def completedText (args : PusherArgs) (msgType partialMsg : List UInt8)
    (number : Nat) : List UInt8 :=
  let unchecked := uncheckedText args msgType partialMsg number
  unchecked ++ sprintf03u (getFIXChecksum (unchecked.take (unchecked.length - 3))) ++ [args.soh]

theorem window_delimited {headed delimited header : List UInt8} {soh : UInt8}
    {start total : Nat} (width : header.length = total)
    (position : start + total = partialMsgOffset)
    (headWritten : Written buffer start (header ++ [0]) headed)
    (sohWritten : Written headed partialMsgOffset [soh] delimited)
    (content : window buffer partialMsgOffset partialMsg.length = partialMsg) :
    window delimited start (total + partialMsg.length) = header ++ partialMsg.set 0 soh := by
  have front : window delimited start total = header := by
    have written : window headed start (total + 1) = header ++ [0] := by
      have here := headWritten.here
      rwa [List.length_append, List.length_singleton, width] at here
    rw [sohWritten.before (by omega), ← take_window headed start total 1,
      written, ← width, List.take_left]
  have back : window delimited partialMsgOffset partialMsg.length = partialMsg.set 0 soh := by
    cases partialMsg with
    | nil => rfl
    | cons first rest =>
      have behind : window buffer (partialMsgOffset + 1) rest.length =
          rest := by
        rw [← drop_window, Nat.add_comm 1]
        exact congrArg (List.drop 1) content
      have delimiter : window delimited partialMsgOffset 1 = [soh] := sohWritten.here
      have unchanged : window delimited (partialMsgOffset + 1) rest.length =
          rest := by
        have reached : start + (header ++ [0]).length = partialMsgOffset + 1 := by
          rw [List.length_append, List.length_singleton, width]
          omega
        calc
          window delimited (partialMsgOffset + 1) rest.length =
              window headed (partialMsgOffset + 1) rest.length :=
            sohWritten.behind (le_refl _)
          _ = window buffer (partialMsgOffset + 1) rest.length :=
            headWritten.behind (le_of_eq reached)
          _ = rest := behind
      rw [List.length_cons, Nat.add_comm, window_add, delimiter, unchanged]
      rfl
  rw [window_add, front, position, back]

theorem completeFIXMessage_eq (typed : cString (buffer.drop msgTypeStringOffset) = msgType)
    (content : window buffer partialMsgOffset partialMsg.length = partialMsg)
    (room : partialMsgOffset + partialMsg.length + fixBufferReservedTail ≤
      buffer.length) {msgSeqNumber number : Nat}
    (next : number = (msgSeqNumber + 1) % 2 ^ 64)
    (short : totalPrefixLength args msgType number
      (bodyLengthOf msgType number partialMsg.length) ≤ partialMsgOffset) :
    ∃ completed, completeFIXMessage args msgSeqNumber buffer partialMsg.length = some completed ∧
      completed.msgSeqNumber = number ∧
      completed.stored = ⟨number, partialMsg.length, (getTtl buffer).1,
        (getTtl buffer).2, partialMsg, msgType⟩ ∧
      completed.bytes = completedText args msgType partialMsg number := by
  have tail : fixBufferReservedTail = 4 := rfl
  have numberFits : number < 2 ^ 64 := next ▸ Nat.mod_lt _ (by omega)
  have lengthFits : bodyLengthOf msgType number partialMsg.length < 2 ^ 64 :=
    Nat.mod_lt _ (by omega)
  have width : (headerText args msgType number
      (bodyLengthOf msgType number partialMsg.length)).length =
        totalPrefixLength args msgType number (bodyLengthOf msgType number partialMsg.length) :=
    length_headerText numberFits lengthFits
  generalize headerEq : headerText args msgType number
    (bodyLengthOf msgType number partialMsg.length) = header at width
  generalize totalEq : totalPrefixLength args msgType number
    (bodyLengthOf msgType number partialMsg.length) = total at width short
  have position : partialMsgOffset - total + total = partialMsgOffset := by
    omega
  have nulWidth : (header ++ [0]).length = total + 1 := by
    rw [List.length_append, List.length_singleton, width]
  obtain ⟨headed, writesHeader, headWritten⟩ : ∃ next,
      memcpy buffer (partialMsgOffset - total) (header ++ [0]) = some next ∧ _ :=
    memcpy_written (by omega)
  have headedSize := headWritten.length
  obtain ⟨delimited, writesSoh, sohWritten⟩ : ∃ next,
      memcpy headed partialMsgOffset [args.soh] = some next ∧ _ :=
    memcpy_written (by rw [List.length_singleton]; omega)
  have delimitedSize := sohWritten.length
  have front := window_delimited width position headWritten sohWritten content
  have unchecked : window delimited (partialMsgOffset - total)
      (total + partialMsg.length) = uncheckedText args msgType partialMsg number := by
    rw [front, uncheckedText, headerEq]
  have uncheckedLength : (uncheckedText args msgType partialMsg number).length =
      total + partialMsg.length := by
    rw [uncheckedText, headerEq, List.length_append, List.length_set, width]
  have enough : 3 ≤ total := by
    rw [← totalEq, totalPrefixLength]
    omega
  have summed : window delimited (partialMsgOffset - total) (total + partialMsg.length - 3) =
        (uncheckedText args msgType partialMsg number).take
          ((uncheckedText args msgType partialMsg number).length - 3) := by
    rw [uncheckedLength, ← unchecked, ← take_window _ _ _ 3, Nat.sub_add_cancel (by omega)]
  have digits : uintToStrZeroPadded 4 args.soh (getFIXChecksum
      (window delimited (partialMsgOffset - total) (total + partialMsg.length - 3))) = _ :=
    uintToStrZeroPadded_checksum args.soh (getFIXChecksum_lt _)
  have digitsLength := length_sprintf03u (getFIXChecksum_lt
    (window delimited (partialMsgOffset - total) (total + partialMsg.length - 3)))
  generalize checksumEq : getFIXChecksum (window delimited
    (partialMsgOffset - total) (total + partialMsg.length - 3)) = checksum
    at digits digitsLength
  have closing : (sprintf03u checksum ++ [args.soh]).length = 4 := by
    rw [List.length_append, List.length_singleton, digitsLength]
  obtain ⟨closed, writesChecksum, checksumWritten⟩ : ∃ next,
      memcpy delimited (partialMsgOffset + partialMsg.length)
        (sprintf03u checksum ++ [args.soh]) = some next ∧ _ :=
    memcpy_written (by omega)
  refine ⟨⟨number, ⟨number, partialMsg.length, (getTtl buffer).1,
    (getTtl buffer).2, partialMsg, msgType⟩, closed, partialMsgOffset - total,
    partialMsg.length + total + 4⟩, ?_, rfl, rfl, ?_⟩
  · simp only [completeFIXMessage, typed, ← next, totalEq, headerEq,
      if_neg (show ¬ partialMsgOffset < total by omega), writesHeader,
      Option.bind_eq_bind, Option.bind_some, writesSoh, checksumEq, digits,
      writesChecksum, content]
  · have whole : partialMsgOffset - total + (total + partialMsg.length) =
        partialMsgOffset + partialMsg.length := by
      omega
    have last : window closed (partialMsgOffset + partialMsg.length) 4 =
        sprintf03u checksum ++ [args.soh] := by
      rw [← closing]
      exact checksumWritten.here
    change window closed (partialMsgOffset - total) (partialMsg.length + total + 4) = _
    rw [Nat.add_comm partialMsg.length, window_add, whole, last,
      checksumWritten.before (le_of_eq whole), unchecked, completedText,
      ← summed, checksumEq, List.append_assoc]

theorem completeFIXMessage_placed {msgSeqNumber number msgLength : Nat}
    {completed : CompletedMessage} (typed : cString (buffer.drop msgTypeStringOffset) = msgType)
    (next : number = (msgSeqNumber + 1) % 2 ^ 64)
    (completes : completeFIXMessage args msgSeqNumber buffer msgLength = some completed) :
    completed.buffer.length = buffer.length ∧
      completed.start + totalPrefixLength args msgType number
        (bodyLengthOf msgType number msgLength) = partialMsgOffset ∧
      completed.start + completed.msgLength = partialMsgOffset + msgLength + 4 ∧
      completed.buffer.take completed.start = buffer.take completed.start := by
  simp only [completeFIXMessage, typed, ← next] at completes
  split at completes
  · cases completes
  · rename_i short
    simp only [Option.bind_eq_bind, Option.bind_eq_some_iff, Option.some.injEq] at completes
    obtain ⟨headed, writesHeader, delimited, writesSoh, closed, writesChecksum, rfl⟩ := completes
    generalize totalPrefixLength args msgType number
      (bodyLengthOf msgType number msgLength) = total at short writesHeader ⊢
    dsimp only
    refine ⟨?_, by omega, by omega, ?_⟩
    · exact (length_memcpy writesChecksum).trans
        ((length_memcpy writesSoh).trans (length_memcpy writesHeader))
    · exact (take_memcpy_before writesChecksum (by omega)).trans
        ((take_memcpy_before writesSoh (by omega)).trans (take_memcpy_before writesHeader le_rfl))

/-- What is stored for a request under a number. -/
def PushRequest.record (request : PushRequest) (number : Nat) : SentRecord :=
  ⟨number, request.data.length, request.ttlSec % 2 ^ 64,
    request.ttlUsec % 2 ^ 64, request.data, request.msgType⟩

theorem Prepared.completes {request : PushRequest} (prepared : Prepared request buffer)
    (startFits : args.fixStart.length < 32) (short : request.msgType.length < msgTypeMaxLength)
    (small : request.data.length < 2 ^ 32) {msgSeqNumber number : Nat}
    (next : number = (msgSeqNumber + 1) % 2 ^ 64) :
    ∃ completed, completeFIXMessage args msgSeqNumber buffer
        (MercuryFix.getLengthOfPartialMsg buffer) = some completed ∧
      completed.msgSeqNumber = number ∧
      completed.stored = request.record number ∧
      completed.bytes = completedText args request.msgType request.data number ∧
      completed.buffer.length = buffer.length := by
  have numberFits : number < 2 ^ 64 := next ▸ Nat.mod_lt _ (by omega)
  have header := totalPrefixLength_le startFits short numberFits
    (bodyLengthOf_lt request.msgType number request.data.length)
  obtain ⟨completed, completes, counted, stored, text⟩ := completeFIXMessage_eq
    prepared.cString_msgType prepared.data prepared.room next header
  have length : MercuryFix.getLengthOfPartialMsg buffer = request.data.length := by
    rw [prepared.getLengthOfPartialMsg, Nat.mod_eq_of_lt small]
  refine ⟨completed, length ▸ completes, counted, ?_, text,
    (completeFIXMessage_placed prepared.cString_msgType next completes).1⟩
  rw [stored, prepared.getTtl, PushRequest.record]

theorem Prepared.completes_stored {request : PushRequest}
    (prepared : Prepared request buffer) (startFits : args.fixStart.length < 32)
    (short : request.msgType.length < msgTypeMaxLength) (msgSeqNumber : Nat) :
    ∃ completed, completeFIXMessage args msgSeqNumber buffer
        (MercuryFix.getLengthOfPartialMsg buffer) = some completed ∧
      tvUsecOffset + 8 ≤ completed.start ∧
      completed.start < partialMsgOffset ∧
      completed.start + completed.msgLength = partialMsgOffset +
        MercuryFix.getLengthOfPartialMsg buffer + fixBufferReservedTail := by
  have stored : MercuryFix.getLengthOfPartialMsg buffer ≤ request.data.length := by
    rw [prepared.getLengthOfPartialMsg]
    exact Nat.mod_le _ _
  have room := prepared.room
  have inside : partialMsgOffset + MercuryFix.getLengthOfPartialMsg buffer +
      fixBufferReservedTail ≤ buffer.length := by
    omega
  have width : (window buffer partialMsgOffset (MercuryFix.getLengthOfPartialMsg buffer)).length =
        MercuryFix.getLengthOfPartialMsg buffer := by
    rw [window, List.length_take, List.length_drop]
    omega
  have header := totalPrefixLength_le_longest startFits short
    (Nat.mod_lt (msgSeqNumber + 1) (by decide : 0 < 2 ^ 64))
    (bodyLengthOf_lt request.msgType ((msgSeqNumber + 1) % 2 ^ 64)
      (MercuryFix.getLengthOfPartialMsg buffer))
  generalize held : window buffer partialMsgOffset
    (MercuryFix.getLengthOfPartialMsg buffer) = partialMsg at width
  rw [← width] at header held inside
  obtain ⟨completed, completes, -⟩ := completeFIXMessage_eq
    prepared.cString_msgType held inside rfl (header.trans (by decide))
  rw [width] at completes header
  obtain ⟨-, placed, reaches, -⟩ := completeFIXMessage_placed prepared.cString_msgType rfl completes
  have reserved : partialMsgOffset = 260 := rfl
  have fields : tvUsecOffset + 8 = 36 := rfl
  have typed : 0 < totalPrefixLength args request.msgType
      ((msgSeqNumber + 1) % 2 ^ 64) (bodyLengthOf request.msgType ((msgSeqNumber + 1) % 2 ^ 64)
        (MercuryFix.getLengthOfPartialMsg buffer)) := by
    unfold totalPrefixLength
    omega
  exact ⟨completed, completes, by omega, by omega, reaches⟩

theorem length_completedText {number : Nat} (numberFits : number < 2 ^ 64) :
    (completedText args msgType partialMsg number).length = totalPrefixLength args msgType number
        (bodyLengthOf msgType number partialMsg.length) +
        partialMsg.length + 4 := by
  have checksum (bytes : List UInt8) : (sprintf03u (getFIXChecksum bytes)).length = 3 :=
    length_sprintf03u (getFIXChecksum_lt bytes)
  simp only [completedText, uncheckedText, List.length_append, checksum, List.length_singleton,
    List.length_set, length_headerText numberFits (bodyLengthOf_lt _ _ _)]

theorem length_le_of_completedText {otherMsg : List UInt8} {first second : Nat}
    (firstFits : first < 2 ^ 64) (secondFits : second < 2 ^ 64)
    (small : partialMsg.length + msgType.length < 2 ^ 63)
    (otherSmall : otherMsg.length + msgType.length < 2 ^ 63)
    (same : completedText args msgType partialMsg first =
      completedText args msgType otherMsg second) :
    otherMsg.length + (render second).length ≤ partialMsg.length + (render first).length := by
  by_contra longer
  have lengths := congrArg List.length same
  rw [length_completedText firstFits, length_completedText secondFits] at lengths
  have firstDigits := getDigitCount_eq firstFits
  have secondDigits := getDigitCount_eq secondFits
  have firstWidth := length_render_le_twenty firstFits
  have secondWidth := length_render_le_twenty secondFits
  have bodies : bodyLengthOf msgType first partialMsg.length ≤
      bodyLengthOf msgType second otherMsg.length := by
    simp only [bodyLengthOf, firstDigits, secondDigits]
    rw [Nat.mod_eq_of_lt (by omega), Nat.mod_eq_of_lt (by omega)]
    omega
  have bodyDigits := length_render_mono bodies
  rw [← getDigitCount_eq (bodyLengthOf_lt _ _ _),
    ← getDigitCount_eq (bodyLengthOf_lt _ _ _)] at bodyDigits
  simp only [totalPrefixLength, firstDigits, secondDigits] at lengths
  omega

theorem parts_of_completedText {otherMsg : List UInt8} {first second : Nat}
    (firstFits : first < 2 ^ 64) (secondFits : second < 2 ^ 64)
    (lengths : partialMsg.length = otherMsg.length)
    (width : (render first).length = (render second).length)
    (same : completedText args msgType partialMsg first =
      completedText args msgType otherMsg second) :
    first = second ∧ partialMsg.set 0 args.soh = otherMsg.set 0 args.soh := by
  have bodies : bodyLengthOf msgType first partialMsg.length =
      bodyLengthOf msgType second otherMsg.length := by
    rw [bodyLengthOf, bodyLengthOf, getDigitCount_eq firstFits,
      getDigitCount_eq secondFits, width, lengths]
  simp only [completedText, uncheckedText, bodies, List.append_assoc] at same
  have headerWidth : (headerText args msgType first
        (bodyLengthOf msgType second otherMsg.length)).length =
      (headerText args msgType second (bodyLengthOf msgType second otherMsg.length)).length := by
    simp [headerText, width]
  obtain ⟨headers, rest⟩ := List.append_inj same headerWidth
  obtain ⟨texts, -⟩ := List.append_inj rest (by
    rw [List.length_set, List.length_set, lengths])
  have digits : render first = render second := by
    simpa [headerText] using headers
  refine ⟨?_, texts⟩
  rw [← value_render first, digits, value_render]

theorem number_of_completedText {first second : Nat}
    (firstFits : first < 2 ^ 64) (secondFits : second < 2 ^ 64)
    (small : partialMsg.length + msgType.length < 2 ^ 63)
    (same : completedText args msgType partialMsg first =
      completedText args msgType partialMsg second) : first = second := by
  have upper := length_le_of_completedText firstFits secondFits small small same
  have lower := length_le_of_completedText secondFits firstFits small small same.symm
  exact (parts_of_completedText firstFits secondFits rfl (by omega) same).1

end Completion

end MercuryFix
