import MercuryFix.OutgoingEntries

/-!
# Completing a message in its entry

`complete_FIX_message` builds the header backwards from the partial message.  It
returns the complete message, and it never leaves the entry nor touches the fields at
its start.
-/

namespace MercuryFix

open DecimalText ByteBlock

section Text

def bodyText (soh : UInt8) (msgType : List UInt8) (number : Nat)
    (fields : List UInt8) : List UInt8 :=
  ascii ['3', '5', '='] ++ msgType ++ soh :: (ascii ['3', '4', '='] ++ render number ++ fields)

def summedText (args : PusherArgs) (msgType : List UInt8) (number : Nat)
    (fields : List UInt8) : List UInt8 :=
  args.fixStart ++ render (bodyText args.soh msgType number fields).length ++
    args.soh :: bodyText args.soh msgType number fields

def messageText (args : PusherArgs) (msgType : List UInt8) (number : Nat)
    (fields : List UInt8) : List UInt8 :=
  summedText args msgType number fields ++ ascii ['1', '0', '='] ++
    zeroPadded 3 (((summedText args msgType number fields).map UInt8.toNat).sum % 256) ++
    [args.soh]

variable {args : PusherArgs} {msgType fields : List UInt8} {number : Nat}

theorem bodyLengthOf_body (numberFits : number < 2 ^ 64)
    (small : (bodyText args.soh msgType number fields).length + 3 < 2 ^ 64) :
    bodyLengthOf msgType number (fields ++ ascii ['1', '0', '=']).length =
      (bodyText args.soh msgType number fields).length := by
  have width : (bodyText args.soh msgType number fields).length =
      7 + msgType.length + (render number).length + fields.length := by
    simp [bodyText, ascii]
    omega
  have closing : (fields ++ ascii ['1', '0', '=']).length = fields.length + 3 := by
    simp [ascii]
  rw [bodyLengthOf, getDigitCount_eq numberFits, closing, width, Nat.mod_eq_of_lt (by omega)]
  omega

theorem completedText_eq_messageText (numberFits : number < 2 ^ 64)
    (begins : fields.head? = some args.soh)
    (small : (bodyText args.soh msgType number fields).length + 3 < 2 ^ 64) :
    completedText args msgType (fields ++ ascii ['1', '0', '=']) number =
      messageText args msgType number fields := by
  have first : (fields ++ ascii ['1', '0', '=']).set 0 args.soh =
      fields ++ ascii ['1', '0', '='] := by
    cases fields with
    | nil => cases begins
    | cons head rest =>
      cases begins
      rfl
  have unchecked : uncheckedText args msgType (fields ++ ascii ['1', '0', '='])
      number = summedText args msgType number fields ++ ascii ['1', '0', '='] := by
    rw [uncheckedText, first, bodyLengthOf_body numberFits small, headerText, summedText]
    generalize (bodyText args.soh msgType number fields).length = length
    simp [bodyText]
  have summed : (uncheckedText args msgType (fields ++ ascii ['1', '0', '='])
      number).take ((uncheckedText args msgType
        (fields ++ ascii ['1', '0', '=']) number).length - 3) =
      summedText args msgType number fields := by
    rw [unchecked, List.length_append]
    exact List.take_left' (by simp [ascii])
  have below : ((summedText args msgType number fields).map UInt8.toNat).sum % 256 < 1000 := by
    omega
  rw [completedText, summed, unchecked, getFIXChecksum_eq_sum, sprintf03u,
    if_pos below, messageText]

/-- `complete_FIX_message` returns the complete message under the next number,
whatever the version is that the message starts with. -/
theorem completeFIXMessage_message {partialMsg buffer : List UInt8}
    {msgSeqNumber : Nat} (startFits : args.fixStart.length ≤ 31)
    (noNul : (0 : UInt8) ∉ msgType) (short : msgType.length ≤ 15)
    (below : msgSeqNumber < 2 ^ 64 - 1)
    (begins : [args.soh] <+: partialMsg)
    (ends : args.soh :: ascii ['1', '0', '='] <:+ partialMsg)
    (holdsType : window buffer msgTypeStringOffset (msgType.length + 1) =
      msgType ++ [0])
    (holdsMessage : window buffer partialMsgOffset partialMsg.length =
      partialMsg)
    (room : partialMsgOffset + partialMsg.length + fixBufferReservedTail ≤
      buffer.length)
    (addressable : buffer.length < 2 ^ 64) :
    ∃ fields completed, partialMsg = fields ++ ascii ['1', '0', '='] ∧
      completeFIXMessage args msgSeqNumber buffer partialMsg.length =
        some completed ∧
      completed.bytes = messageText args msgType (msgSeqNumber + 1) fields ∧
      completed.msgLength = completed.bytes.length := by
  have reserved : partialMsgOffset = 260 := rfl
  have tail : fixBufferReservedTail = 4 := rfl
  have numberFits : msgSeqNumber + 1 < 2 ^ 64 := by omega
  have next : msgSeqNumber + 1 = (msgSeqNumber + 1) % 2 ^ 64 :=
    (Nat.mod_eq_of_lt numberFits).symm
  have isType := cString_of_window noNul holdsType
  obtain ⟨front, rfl⟩ := ends
  have split : front ++ args.soh :: ascii ['1', '0', '='] =
      (front ++ [args.soh]) ++ ascii ['1', '0', '='] := by
    simp
  rw [split] at begins holdsMessage room ⊢
  have first : (front ++ [args.soh]).head? = some args.soh := by
    cases front with
    | nil => rfl
    | cons head front =>
      obtain ⟨rest, same⟩ := begins
      cases same
      rfl
  have lengths : (front ++ [args.soh] ++ ascii ['1', '0', '=']).length =
      (front ++ [args.soh]).length + 3 := by
    simp [ascii]
  generalize front ++ [args.soh] = fields at *
  have small : (bodyText args.soh msgType (msgSeqNumber + 1) fields).length + 3 <
      2 ^ 64 := by
    have digits := length_render_le_twenty numberFits
    simp [bodyText, ascii]
    omega
  have header := totalPrefixLength_le (Nat.lt_succ_of_le startFits)
    (show msgType.length < msgTypeMaxLength from Nat.lt_succ_of_le short)
    numberFits (bodyLengthOf_lt msgType (msgSeqNumber + 1)
      (fields ++ ascii ['1', '0', '=']).length)
  obtain ⟨completed, completes, -, -, text⟩ :=
    completeFIXMessage_eq isType holdsMessage room next header
  obtain ⟨length, placed, reaches, -⟩ :=
    completeFIXMessage_placed isType next completes
  refine ⟨fields, completed, rfl, completes, ?_, ?_⟩
  · rw [text, completedText_eq_messageText numberFits first small]
  · rw [CompletedMessage.bytes, window, List.length_take, List.length_drop]
    omega

def sampleBuffer : List UInt8 :=
  setu32 9 ++ ascii ['D'] ++ List.replicate 255 0 ++
    (1 :: ascii ['5', '5', '=', 'A'] ++ 1 :: ascii ['1', '0', '=']) ++
    List.replicate 4 0

/-- The message in the buffer, as the tests of the source write them. -/
theorem completeFIXMessage_sample :
    ∃ fields completed,
      1 :: ascii ['5', '5', '=', 'A'] ++ 1 :: ascii ['1', '0', '='] =
        fields ++ ascii ['1', '0', '='] ∧
      completeFIXMessage ⟨ascii ['8', '=', 'F'] ++ 1 :: ascii ['9', '='], 1⟩ 8
        sampleBuffer 9 = some completed ∧
      completed.bytes =
        messageText ⟨ascii ['8', '=', 'F'] ++ 1 :: ascii ['9', '='], 1⟩
          (ascii ['D']) 9 fields ∧
      completed.msgLength = completed.bytes.length :=
  completeFIXMessage_message (by decide) (by decide) (by decide) (by decide)
    (by decide) (by decide) (by decide +kernel) (by decide +kernel)
    (by decide +kernel) (by decide +kernel)

end Text

section Layout

inductive PushCall
  | push
  | sessionPush
  | pushToRomeo

/-- The kind of entry that a call fills for a request, if it does not refuse it.
The blocks of romeo are allocated as those of bravo. -/
def PushCall.entry (call : PushCall) (request : PushRequest) : Option Queue :=
  if msgTypeMaxLength < request.msgType.length + 1 then none
  else
    match call with
    | push =>
      if request.data.length ≤ alfaLimit then some .alfa else some .bravo
    | sessionPush =>
      if request.data.length ≤ charlieLimit then some .charlie else none
    | pushToRomeo => some .bravo

theorem Outgoing.push_eq (state : Outgoing) (caller : Nat) (request : PushRequest) :
    state.push caller request = (PushCall.push.entry request).elim (some state)
      fun queue => state.acquire caller queue request := by
  unfold Outgoing.push PushCall.entry
  split_ifs <;> rfl

theorem Outgoing.sessionPush_eq (state : Outgoing) (caller : Nat) (request : PushRequest) :
    state.sessionPush caller request = (PushCall.sessionPush.entry request).elim (some state)
        fun queue => state.acquire caller queue request := by
  unfold Outgoing.sessionPush PushCall.entry
  split_ifs <;> rfl

theorem fits_of_entry {call : PushCall} {request : PushRequest} {queue : Queue}
    (admitted : call.entry request = some queue) :
    request.msgType.length < msgTypeMaxLength ∧ queue.Fits request := by
  unfold PushCall.entry at admitted
  obtain ⟨short, admitted⟩ := Option.ite_none_left_eq_some.mp admitted
  refine ⟨by omega, ?_⟩
  cases call with
  | push =>
    dsimp only at admitted
    split at admitted
    · cases admitted
      assumption
    · cases admitted
      trivial
  | sessionPush =>
    obtain ⟨fits, admitted⟩ := Option.ite_none_right_eq_some.mp admitted
    cases admitted
    exact fits
  | pushToRomeo =>
    cases admitted
    trivial

/-- Where the bytes of an entry go when it is filled and when its message is
completed. -/
structure StaysInside (args : PusherArgs) (msgSeqNumber : Nat)
    (request : PushRequest) (block filled : List UInt8) (completed : CompletedMessage) : Prop where
  fills : fillEntry request block = some filled
  completes : completeFIXMessage args msgSeqNumber filled
    (getLengthOfPartialMsg filled) = some completed
  fill_length : filled.length = block.length
  complete_length : completed.buffer.length = block.length
  behind_fields : tvUsecOffset + 8 ≤ completed.start
  fields_kept : completed.buffer.take (tvUsecOffset + 8) = filled.take (tvUsecOffset + 8)
  stored_le : getLengthOfPartialMsg filled ≤ request.data.length
  tail_behind : completed.start + completed.msgLength =
    partialMsgOffset + getLengthOfPartialMsg filled + fixBufferReservedTail
  tail_room : partialMsgOffset + request.data.length + fixBufferReservedTail ≤ block.length

/-- Nothing that is done with an accepted message leaves its entry. -/
theorem push_staysInside (args : PusherArgs) {call : PushCall}
    {request : PushRequest} {queue : Queue} {memory malloced block : List UInt8}
    (admitted : call.entry request = some queue) (sized : queue.Sized memory)
    (blocks : queue.block request memory malloced = some block)
    (startFits : args.fixStart.length ≤ 31) (msgSeqNumber : Nat) :
    ∃ filled completed,
      StaysInside args msgSeqNumber request block filled completed := by
  obtain ⟨short, fits⟩ := fits_of_entry admitted
  obtain ⟨room, -⟩ := Queue.room_of_fits fits sized blocks
  obtain ⟨filled, fills, prepared, fillLength⟩ := fillEntry_prepared short room
  have stored : getLengthOfPartialMsg filled ≤ request.data.length := by
    rw [prepared.getLengthOfPartialMsg]
    exact Nat.mod_le _ _
  -- The stored length counts modulo 2^32, and the completion goes by it.
  obtain ⟨completed, completes, behind, -, reaches⟩ := prepared.completes_stored
    (Nat.lt_succ_of_le startFits) short msgSeqNumber
  obtain ⟨length, -, -, kept⟩ :=
    completeFIXMessage_placed prepared.cString_msgType rfl completes
  refine ⟨filled, completed,
    { fills := fills
      completes := completes
      fill_length := fillLength
      complete_length := length.trans fillLength
      behind_fields := behind
      fields_kept := ?_
      stored_le := stored
      tail_behind := reaches
      tail_room := room }⟩
  have front := congrArg (List.take (tvUsecOffset + 8)) kept
  rwa [List.take_take, List.take_take, Nat.min_eq_left behind] at front

def shortRequest : PushRequest := ⟨ascii ['1', '0', '='], ascii ['A', 'E'], 0, 0, by decide⟩

theorem shortRequest_staysInside :
    ∃ filled completed, StaysInside ⟨ascii ['8', '=', '9', '='], 1⟩ 41
      shortRequest (List.replicate 4096 0) filled completed :=
  push_staysInside ⟨ascii ['8', '=', '9', '='], 1⟩
    (show PushCall.push.entry shortRequest = some .alfa from rfl)
    (show Queue.alfa.Sized (List.replicate 4096 0) from List.length_replicate)
    (show Queue.alfa.block shortRequest (List.replicate 4096 0) [] =
      some (List.replicate 4096 0) from rfl)
    (by decide) 41

end Layout

end MercuryFix
