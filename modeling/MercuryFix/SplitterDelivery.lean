import MercuryFix.MessageTypeLookup
import MercuryFix.SplitterMemorySafety
import MercuryFix.SplitterSoundness

/-!
# The way of a well-formed message through the splitter

A well-formed message that starts where the splitter looks for a begin string
is assembled byte for byte, and what happens to it then depends only on its
number, its type and its size.
-/

namespace MercuryFix

open DecimalText ByteBlock

variable {args : SplitterArgs} {s : Splitter}

section Number

theorem takeWhile_digits {soh : UInt8} {digits back : List UInt8}
    (areDigits : ∀ byte ∈ digits, isDigit byte = true) (closed : soh ∉ digits) :
    (digits ++ soh :: back).takeWhile (fun byte => soh != byte && isDigit byte) = digits := by
  have kept : ∀ byte ∈ digits, (soh != byte && isDigit byte) = true := by
    intro byte member
    have different : soh ≠ byte := fun equal => closed (equal ▸ member)
    simp [different, areDigits byte member]
  rw [List.takeWhile_append_of_pos kept]
  simp

/-- `get_sequence_number` on a message whose number is well formed: the message
is left as it is, and `ULLONG_MAX` is taken for an error. -/
theorem getSequenceNumber_of_carries {soh : UInt8} {msg : List UInt8}
    {len number : Nat} (carries : CarriesNumber soh (msg.take len) number) :
    getSequenceNumber soh len msg = some ⟨if min number (2 ^ 64 - 1) = 2 ^ 64 - 1 then 0
        else min number (2 ^ 64 - 1), decide (2 ^ 64 - 1 < number), msg⟩ := by
  obtain ⟨front, digits, back, bytesEq, found, _, areDigits, closed, rfl⟩ := carries
  have whole : msg = front ++ seqnumTag soh ++ digits ++ soh :: (back ++ msg.drop len) := by
    calc
      msg = msg.take len ++ msg.drop len := (List.take_append_drop len msg).symm
      _ = _ := by rw [bytesEq]; simp
  have tagLength : (front ++ seqnumTag soh).length = front.length + 4 := by
    simp [seqnumTag, ascii]
  have behindTag : msg.drop (front.length + 4) = digits ++ soh :: (back ++ msg.drop len) := by
    rw [← tagLength]
    conv_lhs => rw [whole]
    rw [List.append_assoc, List.drop_left]
  have stopByte : msg[front.length + 4 + digits.length]? = some soh := by
    rw [← List.getElem?_drop, behindTag]
    simp
  have inside : front.length + 4 + digits.length < msg.length :=
    (List.getElem?_eq_some_iff.mp stopByte).1
  have located : memmem (soh :: ascii ['3', '4', '=']) (msg.take len) = some front.length := found
  unfold getSequenceNumber
  rw [located]
  dsimp only
  rw [behindTag, takeWhile_digits areDigits closed, if_pos inside]
  have unchanged : msg.set (front.length + 4 + digits.length) soh = msg := by
    rw [List.getElem?_eq_some_iff] at stopByte
    obtain ⟨bound, valueEq⟩ := stopByte
    rw [← valueEq, List.set_getElem_self]
  rw [unchanged]

end Number

section Holding

/-- The delta entry holds a well-formed message, complete and unchecked. -/
structure Holding (args : SplitterArgs) (message : FixMessage args.soh)
    (s : Splitter) : Prop extends Assembled args s where
  bytes : s.delta.data.take s.delta.size = message.bytes args.beginString

theorem append_delimiter_inj {soh : UInt8} {first second restFirst restSecond :
      List UInt8} (firstClosed : soh ∉ first) (secondClosed : soh ∉ second)
    (equal : first ++ soh :: restFirst = second ++ soh :: restSecond) :
    first = second := by
  rw [← takeWhile_delimited firstClosed restFirst, equal, takeWhile_delimited secondClosed]

variable {message : FixMessage args.soh}

section

variable (holding : Holding args message s)
include holding

theorem Holding.text_eq : cString s.lengthStr = message.digits := by
  have bytes := holding.message_eq.symm.trans holding.bytes
  rw [FixMessage.bytes, FixMessage.summed, List.append_assoc, List.append_assoc, List.append_assoc,
    List.append_cancel_left_eq, List.cons_append] at bytes
  cases rest : s.behindDigits args with
  | nil =>
    rw [rest, List.append_nil] at bytes
    have delimiter := holding.text.closed
    rw [bytes] at delimiter
    simp at delimiter
  | cons first behind =>
    have head := holding.head?_behindDigits (by simp [rest])
    rw [rest, List.head?_cons, Option.some.injEq] at head
    rw [rest, head] at bytes
    exact append_delimiter_inj holding.text.closed message.closed bytes

theorem Holding.size_eq : s.delta.size = (message.summed args.beginString).length + 7 := by
  rw [← holding.length_message, holding.bytes, FixMessage.bytes,
    List.length_append, FixMessage.length_trailer]

theorem Holding.data_eq : s.delta.data = message.summed args.beginString ++
      (message.trailer args.beginString ++ s.delta.data.drop s.delta.size) := by
  calc
    s.delta.data = s.delta.data.take s.delta.size ++
        s.delta.data.drop s.delta.size := (List.take_append_drop _ _).symm
    _ = _ := by rw [holding.bytes, FixMessage.bytes, List.append_assoc]

theorem Holding.checksum : ChecksumMatches s.delta := by
  have size := holding.size_eq
  have summed : uint32Sub s.delta.size 7 = (message.summed args.beginString).length := by
    rw [uint32Sub, if_pos (by omega)]
    omega
  have position : s.delta.size - 4 = (message.summed args.beginString).length + 3 := by
    omega
  have width := length_sprintf03u (getFIXChecksum_lt (message.summed args.beginString))
  unfold ChecksumMatches
  rw [summed, position]
  conv_lhs => rw [holding.data_eq]
  conv_rhs => rw [holding.data_eq]
  rw [List.take_left, List.drop_length_add_append, FixMessage.trailer]
  simp [ascii, width]

theorem Holding.drop_msgType :
    ∃ behind, s.delta.data.drop (msgTypeOffset args s) = message.msgType ++ args.soh :: behind := by
  have front : (args.beginString ++ message.digits ++
      args.soh :: ascii ['3', '5', '=']).length = msgTypeOffset args s := by
    simp [msgTypeOffset, headerLength, holding.text_eq, ascii]
    omega
  have whole : s.delta.data = (args.beginString ++ message.digits ++
      args.soh :: ascii ['3', '5', '=']) ++ (message.msgType ++ args.soh :: (message.fields ++
          (message.trailer args.beginString ++ s.delta.data.drop s.delta.size))) := by
    conv_lhs => rw [holding.data_eq]
    simp [FixMessage.summed, FixMessage.body]
  refine ⟨message.fields ++ (message.trailer args.beginString ++
    s.delta.data.drop s.delta.size), ?_⟩
  rw [← front]
  conv_lhs => rw [whole]
  rw [List.drop_left]

theorem Holding.msgType_short : message.msgType.length < 2 ^ 32 := by
  have bounded := holding.bounded
  have size := congrArg List.length holding.bytes
  rw [List.length_take] at size
  simp only [FixMessage.bytes, FixMessage.summed, FixMessage.body,
    List.length_append, List.length_cons] at size
  omega

end

def plainRead (s : Splitter) (number : Nat) : SequenceNumberRead := ⟨number, false, s.delta.data⟩

theorem numbered_of_unchanged {read : SequenceNumberRead}
    (quiet : read.erange = false) (unchanged : read.msg = s.delta.data) :
    s.numbered read = s := by
  unfold Splitter.numbered
  rw [quiet, unchanged, Bool.or_false]

theorem Holding.firstByte (holding : Holding args message s) :
    ∃ first, s.delta.data[msgTypeOffset args s]? = some first ∧
      charEqByte args.soh first = false := by
  obtain ⟨behind, typeEq⟩ := holding.drop_msgType
  cases typeText : message.msgType with
  | nil => exact absurd typeText message.typed
  | cons first rest =>
    refine ⟨first, ?_, ?_⟩
    · rw [← List.head?_drop, typeEq, typeText]
      rfl
    · rw [← Bool.not_eq_true, charEqByte_iff]
      rintro ⟨delimiter, _⟩
      apply message.delimited
      rw [typeText, delimiter]
      exact List.mem_cons_self

theorem Holding.dispatch (holding : Holding args message s) (received : Nat)
    {t : Splitter} (same : t = s.counted s.next) :
    dispatchMessage args received t =
      if isSessionMessage (lookupMsgtype message.msgType) = true then
        if echoMaxDataSize < s.delta.size then
          (s.counted ((s.next + 2 ^ 64 - 1) % 2 ^ 64), [])
        else (s.counted s.next, delivery args s (plainRead s received) .echoCommit)
      else ({ s.counted s.next with delta := .vacant },
        delivery args s (plainRead s received) .deltaCommit) := by
  obtain ⟨first, firstByte, nonempty⟩ := holding.firstByte
  obtain ⟨behind, typeEq⟩ := holding.drop_msgType
  have typed : getFixMsgtype args.soh
      (s.delta.data.drop (msgTypeOffset args s)) = some (lookupMsgtype message.msgType) := by
    rw [typeEq, getFixMsgtype_of_delimited message.delimited holding.msgType_short]
  have ordinary : isSessionMessage (lookupMsgtype message.msgType) = false →
      lookupMsgtype message.msgType ≠ .fmtResendRequest := by
    intro application resend
    rw [resend, isSessionMessage_resendRequest] at application
    cases application
  have first_t : t.delta.data[args.beginString.length +
      (cString t.lengthStr).length + 4]? = some first := by
    rw [same]
    exact firstByte
  have typed_t : getFixMsgtype args.soh (t.delta.data.drop
      (args.beginString.length + (cString t.lengthStr).length + 4)) =
        some (lookupMsgtype message.msgType) := by
    rw [same]
    exact typed
  unfold dispatchMessage
  simp only [first_t, typed_t, nonempty, Bool.false_eq_true, ↓reduceIte]
  cases session : isSessionMessage (lookupMsgtype message.msgType) with
  | false =>
    simp only [Bool.not_false, ↓reduceIte, ordinary session, ne_eq,
      not_false_eq_true, Bool.false_eq_true]
    rw [same]
    rfl
  | true =>
    simp only [Bool.not_true, Bool.false_eq_true, ↓reduceIte]
    by_cases large : echoMaxDataSize < s.delta.size
    · have large_t : echoMaxDataSize < t.delta.size := by
        rw [same]
        exact large
      rw [if_pos large, if_pos large_t, same]
      rfl
    · have small_t : ¬ echoMaxDataSize < t.delta.size := by
        rw [same]
        exact large
      rw [if_neg large, if_neg small_t, same]
      rfl

theorem messageComplete_of_verified {read : SequenceNumberRead}
    (room : uint32Sub s.delta.size 7 ≤ s.delta.data.length ∧ s.delta.size ≤ s.delta.data.length)
    (verified : Verified args s read) :
    messageComplete args s = if read.seqnum = s.next then
        dispatchMessage args read.seqnum ((s.numbered read).counted s.next)
      else (s.numbered read, [.sendResendRequestMessage s.expected]) := by
  have inside : ¬ (s.delta.data.length < uint32Sub s.delta.size 7 ∨
      s.delta.data.length < s.delta.size) := by
    omega
  have checksum : (s.delta.data.drop (s.delta.size - 4)).take 3 = sprintf03u (getFIXChecksum
        (s.delta.data.take (uint32Sub s.delta.size 7))) := verified.checksum
  unfold messageComplete
  simp only [inside, checksum, verified.reads, ↓reduceIte, ne_eq, not_true_eq_false]
  by_cases next : read.seqnum = s.next
  · rw [if_pos next]
    exact if_neg (not_not.mpr next)
  · rw [if_neg next]
    exact if_pos next

section

variable (holding : Holding args message s)
include holding

theorem Holding.room_summed :
    uint32Sub s.delta.size 7 ≤ s.delta.data.length ∧ s.delta.size ≤ s.delta.data.length := by
  have size := holding.size_eq
  have room := holding.room
  rw [uint32Sub, if_pos (by omega)]
  omega

theorem Holding.reads {number : Nat}
    (carries : CarriesNumber args.soh (message.bytes args.beginString) number) :
    getSequenceNumber args.soh s.delta.size s.delta.data =
      some ⟨if min number (2 ^ 64 - 1) = 2 ^ 64 - 1 then 0
        else min number (2 ^ 64 - 1), decide (2 ^ 64 - 1 < number),
        s.delta.data⟩ := by
  rw [← holding.bytes] at carries
  exact getSequenceNumber_of_carries carries

theorem Holding.complete_next {number : Nat}
    (carries : CarriesNumber args.soh (message.bytes args.beginString) number)
    (next : number = s.next) (below : number < 2 ^ 64 - 1) :
    messageComplete args s = if isSessionMessage (lookupMsgtype message.msgType) = true then
        if echoMaxDataSize < s.delta.size then
          (s.counted ((s.next + 2 ^ 64 - 1) % 2 ^ 64), [])
        else (s.counted s.next, delivery args s (plainRead s number) .echoCommit)
      else ({ s.counted s.next with delta := .vacant },
        delivery args s (plainRead s number) .deltaCommit) := by
  have reads := holding.reads carries
  rw [Nat.min_eq_left (by omega), if_neg (by omega), decide_eq_false (by omega)] at reads
  have verified : Verified args s (plainRead s number) := ⟨holding.checksum, reads⟩
  have isNext : (plainRead s number).seqnum = s.next := next
  rw [messageComplete_of_verified holding.room_summed verified,
    if_pos isNext, numbered_of_unchanged rfl rfl]
  exact holding.dispatch number rfl

/-- The largest number is taken for an error, and the message for a gap. -/
theorem Holding.complete_last
    (carries : CarriesNumber args.soh (message.bytes args.beginString) (2 ^ 64 - 1))
    (next : s.next = 2 ^ 64 - 1) :
    messageComplete args s = (s, [.sendResendRequestMessage s.expected]) := by
  have reads := holding.reads carries
  rw [Nat.min_self, if_pos rfl, decide_eq_false (lt_irrefl _)] at reads
  have verified : Verified args s (plainRead s 0) := ⟨holding.checksum, reads⟩
  have gap : (plainRead s 0).seqnum ≠ s.next := by
    rw [next]
    exact Nat.zero_ne_add_one _
  rw [messageComplete_of_verified holding.room_summed verified, if_neg gap,
    numbered_of_unchanged rfl rfl]

end

def OversizedSession (args : SplitterArgs) (message : FixMessage args.soh) :
    Prop :=
  isSessionMessage (lookupMsgtype message.msgType) = true ∧
    echoMaxDataSize < (message.bytes args.beginString).length

def deliveredEffects (args : SplitterArgs) (message : FixMessage args.soh)
    (number : Nat) : List Effect :=
  let bytes := message.bytes args.beginString
  let offset := args.beginString.length + message.digits.length + 4
  [.storeRecvMsg number bytes.length bytes,
    if isSessionMessage (lookupMsgtype message.msgType) then
      .echoCommit bytes.length offset bytes
    else .deltaCommit bytes.length offset bytes]

section

variable (holding : Holding args message s)
include holding

theorem Holding.size_eq_length : s.delta.size = (message.bytes args.beginString).length := by
  rw [← holding.bytes, holding.length_message]

theorem Holding.offset_eq :
    msgTypeOffset args s % 2 ^ 32 = args.beginString.length + message.digits.length + 4 := by
  have bounded := holding.bounded
  rw [holding.size_eq_length, message.length_bytes] at bounded
  have positive : 0 < message.body.length := by simp [FixMessage.body]
  rw [msgTypeOffset, headerLength, holding.text_eq]
  omega

theorem Holding.delivery_eq {number : Nat} (commit : Nat → Nat → List UInt8 → Effect) :
    delivery args s (plainRead s number) commit =
      [.storeRecvMsg number (message.bytes args.beginString).length
          (message.bytes args.beginString),
        commit (message.bytes args.beginString).length
          (args.beginString.length + message.digits.length + 4)
          (message.bytes args.beginString)] := by
  unfold delivery plainRead
  rw [holding.bytes, holding.size_eq_length, holding.offset_eq]

theorem Holding.complete_delivered {number : Nat}
    (carries : CarriesNumber args.soh (message.bytes args.beginString) number)
    (next : number = s.next) (below : number ≠ 2 ^ 64 - 1)
    (fits : ¬ OversizedSession args message) :
    ∃ delta, messageComplete args s =
      ({ s.counted number with delta := delta }, deliveredEffects args message number) := by
  have bound := s.next_lt
  have complete := holding.complete_next carries next (by omega)
  rw [← next] at complete
  unfold OversizedSession at fits
  rw [← holding.size_eq_length, not_and] at fits
  unfold deliveredEffects
  cases session : isSessionMessage (lookupMsgtype message.msgType) with
  | false =>
    rw [session, if_neg Bool.false_ne_true, holding.delivery_eq] at complete
    exact ⟨.vacant, complete⟩
  | true =>
    rw [session, if_pos rfl, if_neg (fits session), holding.delivery_eq] at complete
    exact ⟨s.delta, complete⟩

theorem Holding.complete_oversized {number : Nat}
    (carries : CarriesNumber args.soh (message.bytes args.beginString) number)
    (next : number = s.next) (below : number ≠ 2 ^ 64 - 1)
    (oversized : OversizedSession args message) :
    messageComplete args s = (s.counted ((s.next + 2 ^ 64 - 1) % 2 ^ 64), []) := by
  have bound := s.next_lt
  obtain ⟨session, large⟩ := oversized
  rw [← holding.size_eq_length] at large
  rw [holding.complete_next carries next (by omega), if_pos session, if_pos large]

end

/-- What becomes of a well-formed message in sequence. -/
inductive Fate (args : SplitterArgs) (message : FixMessage args.soh)
    (s : Splitter) (number : Nat) : Prop
  | last (isLast : number = 2 ^ 64 - 1)
      (effects : messageEffects args s =
        [.sendResendRequestMessage s.expected])
  | dropped (below : number ≠ 2 ^ 64 - 1)
      (oversized : OversizedSession args message)
      (effects : messageEffects args s = [])
  | delivered (below : number ≠ 2 ^ 64 - 1)
      (fits : ¬ OversizedSession args message)
      (effects : messageEffects args s = deliveredEffects args message number)
      (counted : (handled args s).expected = number)

theorem Holding.fate {number : Nat} (holding : Holding args message s)
    (carries : CarriesNumber args.soh (message.bytes args.beginString) number)
    (next : number = s.next) : Fate args message s number := by
  by_cases isLast : number = 2 ^ 64 - 1
  · subst isLast
    apply Fate.last rfl
    rw [messageEffects, holding.complete_last carries next.symm]
  by_cases oversized : OversizedSession args message
  · apply Fate.dropped isLast oversized
    rw [messageEffects, holding.complete_oversized carries next isLast oversized]
  · obtain ⟨delta, complete⟩ := holding.complete_delivered carries next isLast oversized
    apply Fate.delivered isLast oversized
    · rw [messageEffects, complete]
    · rw [handled, complete]
      rfl

theorem Fate.delivered_iff {number : Nat} {Brought : Prop} (fate : Fate args message s number)
    (refused : messageEffects args s = [.sendResendRequestMessage s.expected] → ¬ Brought)
    (silent : messageEffects args s = [] → ¬ Brought)
    (delivers : messageEffects args s = deliveredEffects args message number →
      (handled args s).expected = number → Brought) :
    Brought ↔ number ≠ 2 ^ 64 - 1 ∧ ¬ OversizedSession args message := by
  cases fate with
  | last isLast effects =>
    exact iff_of_false (refused effects) (fun deliverable => deliverable.1 isLast)
  | dropped below oversized effects =>
    exact iff_of_false (silent effects) (fun deliverable => deliverable.2 oversized)
  | delivered below fits effects counted =>
    exact iff_of_true (delivers effects counted) ⟨below, fits⟩

end Holding

end MercuryFix
