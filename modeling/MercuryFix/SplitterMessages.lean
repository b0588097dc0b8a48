import MercuryFix.SplitterBytes

/-!
# What happens to a complete message

`Outcome` lists the exits of the message-complete branch with the tests that
lead to each of them.  Every later result about deliveries, sequence numbers
and losses is read off this list; the code of the branch is taken apart here
and nowhere else.
-/

namespace MercuryFix

open DecimalText ByteBlock

/-- The three bytes in front of the last one are the checksum of all bytes up
to the trailer. -/
def ChecksumMatches (delta : DeltaEntry) : Prop :=
  (delta.data.drop (delta.size - 4)).take 3 =
    sprintf03u (getFIXChecksum (delta.data.take (uint32Sub delta.size 7)))

instance (delta : DeltaEntry) : Decidable (ChecksumMatches delta) :=
  inferInstanceAs (Decidable (_ = _))

def msgTypeOffset (args : SplitterArgs) (s : Splitter) : Nat := headerLength args s + 4

def Splitter.next (s : Splitter) : Nat := (s.expected + 1) % 2 ^ 64

def Splitter.numbered (s : Splitter) (read : SequenceNumberRead) : Splitter :=
  { s with
    erange := s.erange || read.erange
    delta := { s.delta with data := read.msg } }

def Splitter.counted (s : Splitter) (expected : Nat) : Splitter := { s with expected := expected }

@[simp]
theorem Splitter.counted_fault (s : Splitter) (expected : Nat) :
    (s.counted expected).fault = s.fault :=
  rfl

/-- A complete message that passes the checksum, and what its sequence number
was read as. -/
structure Verified (args : SplitterArgs) (s : Splitter) (read : SequenceNumberRead) : Prop where
  checksum : ChecksumMatches s.delta
  reads : getSequenceNumber args.soh s.delta.size s.delta.data = some read

/-- A verified message with the next number, the first byte and the type of
its MsgType value. -/
structure InSequence (args : SplitterArgs) (s : Splitter)
    (read : SequenceNumberRead) (first : UInt8) : Prop
    extends Verified args s read where
  next : read.seqnum = s.next
  firstByte : read.msg[msgTypeOffset args s]? = some first

def delivery (args : SplitterArgs) (s : Splitter) (read : SequenceNumberRead)
    (commit : Nat → Nat → List UInt8 → Effect) : List Effect :=
  [.storeRecvMsg read.seqnum s.delta.size (read.msg.take s.delta.size),
    commit s.delta.size (msgTypeOffset args s % 2 ^ 32) (read.msg.take s.delta.size)]

/-- The exits of the message-complete branch. -/
inductive Outcome (args : SplitterArgs) (s : Splitter) :
    Splitter × List Effect → Prop
  | faulted (next : Splitter) (fault : Fault) (raised : next.fault = some fault)
      (read : fault ≠ .deltaWrite) : Outcome args s (next, [])
  | badChecksum (differs : ¬ ChecksumMatches s.delta) : Outcome args s (s, [])
  | outOfSequence (read : SequenceNumberRead) (verified : Verified args s read)
      (other : read.seqnum ≠ s.next) :
      Outcome args s
        (s.numbered read, [.sendResendRequestMessage s.expected])
  | emptyType (read : SequenceNumberRead) (first : UInt8)
      (inSequence : InSequence args s read first)
      (empty : charEqByte args.soh first = true) :
      Outcome args s
        ((s.numbered read).counted s.next,
          [.sendSessionLevelRejectMessage read.seqnum
            "malformed message type value"])
  | delta (read : SequenceNumberRead) (first : UInt8) (type : FixMsgType)
      (inSequence : InSequence args s read first)
      (nonempty : charEqByte args.soh first = false)
      (typed : getFixMsgtype args.soh
        (read.msg.drop (msgTypeOffset args s)) = some type)
      (application : isSessionMessage type = false) :
      Outcome args s
        ({ (s.numbered read).counted s.next with delta := .vacant },
          delivery args s read .deltaCommit)
  | oversized (read : SequenceNumberRead) (first : UInt8) (type : FixMsgType)
      (inSequence : InSequence args s read first)
      (nonempty : charEqByte args.soh first = false)
      (typed : getFixMsgtype args.soh
        (read.msg.drop (msgTypeOffset args s)) = some type)
      (session : isSessionMessage type = true)
      (large : echoMaxDataSize < s.delta.size) :
      Outcome args s
        ((s.numbered read).counted ((s.next + 2 ^ 64 - 1) % 2 ^ 64), [])
  | echo (read : SequenceNumberRead) (first : UInt8) (type : FixMsgType)
      (inSequence : InSequence args s read first)
      (nonempty : charEqByte args.soh first = false)
      (typed : getFixMsgtype args.soh
        (read.msg.drop (msgTypeOffset args s)) = some type)
      (session : isSessionMessage type = true)
      (fits : s.delta.size ≤ echoMaxDataSize) :
      Outcome args s
        ((s.numbered read).counted s.next,
          delivery args s read .echoCommit)

section Branch

variable {args : SplitterArgs} {s : Splitter}

theorem dispatchMessage_outcome {read : SequenceNumberRead} {t : Splitter}
    (verified : Verified args s read) (next : read.seqnum = s.next)
    (counted : t = (s.numbered read).counted s.next) :
    Outcome args s (dispatchMessage args read.seqnum t) := by
  unfold dispatchMessage
  dsimp only
  split
  · exact .faulted _ _ rfl (by simp)
  · rename_i first firstByte
    have inSequence : InSequence args s read first :=
      ⟨verified, next, by rw [counted] at firstByte; exact firstByte⟩
    split
    · rename_i empty
      subst counted
      exact .emptyType read first inSequence empty
    · rename_i nonempty
      rw [Bool.not_eq_true] at nonempty
      split
      · exact .faulted _ _ rfl (by simp)
      · rename_i type typed
        cases session : isSessionMessage type with
        | false =>
          have ordinary : type ≠ .fmtResendRequest := by
            rintro rfl
            rw [isSessionMessage_resendRequest] at session
            cases session
          rw [if_pos Bool.not_false, if_pos ordinary]
          subst counted
          exact .delta read first type inSequence nonempty typed session
        | true =>
          rw [if_neg (by simp)]
          split
          · rename_i large
            subst counted
            exact .oversized read first type inSequence nonempty typed session large
          · rename_i small
            subst counted
            exact .echo read first type inSequence nonempty typed session (not_lt.mp small)

theorem messageComplete_outcome (args : SplitterArgs) (s : Splitter) :
    Outcome args s (messageComplete args s) := by
  unfold messageComplete
  dsimp only
  split
  · exact .faulted _ _ rfl (by simp)
  · split
    · rename_i differs
      exact .badChecksum differs
    · rename_i equal
      split
      · exact .faulted _ _ rfl (by simp)
      · rename_i read reads
        have verified : Verified args s read := ⟨not_not.mp equal, reads⟩
        split
        · rename_i other
          exact .outOfSequence read verified other
        · rename_i next
          exact dispatchMessage_outcome verified (not_not.mp next) rfl

theorem handled_outcome (args : SplitterArgs) (s : Splitter) :
    ∃ done, Outcome args s done ∧ messageEffects args s = done.2 ∧
      (handled args s).expected = done.1.expected ∧
      (handled args s).fault = done.1.fault :=
  ⟨_, messageComplete_outcome args s, rfl, rfl, rfl⟩

end Branch

section Consistency

variable {args : SplitterArgs} {s : Splitter}

theorem length_of_getSequenceNumber {soh : UInt8} {len : Nat}
    {msg : List UInt8} {read : SequenceNumberRead}
    (reads : getSequenceNumber soh len msg = some read) :
    read.msg.length = msg.length := by
  unfold getSequenceNumber at reads
  split at reads
  · cases reads
    rfl
  · dsimp only at reads
    split at reads
    · cases reads
      exact List.length_set
    · cases reads

theorem Splitter.next_lt (s : Splitter) : s.next < 2 ^ 64 := Nat.mod_lt _ (by omega)

theorem Splitter.next_back (s : Splitter) (counter : s.expected < 2 ^ 64) :
    (s.next + 2 ^ 64 - 1) % 2 ^ 64 = s.expected := by
  unfold Splitter.next
  omega

theorem consistent_numbered {read : SequenceNumberRead} {expected : Nat}
    (consistent : Consistent args s.restarted)
    (verified : Verified args s read) (counter : expected < 2 ^ 64) :
    Consistent args ((s.numbered read).counted expected).restarted where
  lengthStr := consistent.lengthStr
  counter := counter
  size := consistent.size
  room := by
    have width := length_of_getSequenceNumber verified.reads
    rcases consistent.room with room | ⟨empty, failed⟩
    · exact Or.inl (width ▸ room)
    · right
      rw [show s.delta.data = [] from empty] at width
      exact ⟨List.eq_nil_of_length_eq_zero width, failed⟩
  finding := by intro impossible; cases impossible
  copying := by intro impossible; cases impossible

theorem handled_sound (consistent : Consistent args s.restarted) : Sound args (handled args s) := by
  have outcome := messageComplete_outcome args s
  unfold handled
  generalize messageComplete args s = done at outcome
  intro noFault
  cases outcome with
  | faulted next fault raised read =>
    rw [show next.fault = none from noFault] at raised
    cases raised
  | badChecksum differs => exact consistent
  | outOfSequence read verified other =>
    exact consistent_numbered consistent verified consistent.counter
  | emptyType read first inSequence empty =>
    exact consistent_numbered consistent inSequence.toVerified s.next_lt
  | delta read first type inSequence nonempty typed application =>
    exact
      { lengthStr := consistent.lengthStr
        counter := s.next_lt
        size := by simp [Splitter.restarted, DeltaEntry.vacant]
        room := Or.inl (Nat.le_refl 0)
        finding := by intro impossible; cases impossible
        copying := by intro impossible; cases impossible }
  | oversized read first type inSequence nonempty typed session large =>
    rw [s.next_back consistent.counter]
    exact consistent_numbered consistent inSequence.toVerified consistent.counter
  | echo read first type inSequence nonempty typed session fits =>
    exact consistent_numbered consistent inSequence.toVerified s.next_lt

theorem handled_state (args : SplitterArgs) (s : Splitter) :
    (handled args s).state = .findingBeginString := by
  rw [handled, Splitter.restarted]

end Consistency

section Counters

variable {args : SplitterArgs} {s : Splitter}

def Splitter.recounted (s : Splitter) (bytesLeft offset : Nat) : Splitter :=
  { s with bytesLeftToCopy := bytesLeft, offset := offset }

theorem resendRequestReceived_recounted (received bytesLeft offset : Nat) :
    resendRequestReceived args received (s.recounted bytesLeft offset) =
      ((resendRequestReceived args received s).1.recounted bytesLeft offset,
        (resendRequestReceived args received s).2) := by
  simp only [resendRequestReceived, Splitter.recounted]
  split
  · rfl
  · split
    · rfl
    · split <;> rfl

theorem dispatchMessage_recounted (received bytesLeft offset : Nat) :
    dispatchMessage args received (s.recounted bytesLeft offset) =
      ((dispatchMessage args received s).1.recounted bytesLeft offset,
        (dispatchMessage args received s).2) := by
  have resend : resendRequestReceived args received (s.recounted bytesLeft offset) = _ :=
    resendRequestReceived_recounted received bytesLeft offset
  simp only [Splitter.recounted] at resend
  simp only [dispatchMessage, Splitter.recounted]
  split
  · rfl
  · split
    · rfl
    · split
      · rfl
      · split
        · split
          · rfl
          · exact resend
        · by_cases large : echoMaxDataSize < s.delta.size
          · simp only [large, ↓reduceIte]
          · simp only [large, ↓reduceIte]

theorem messageComplete_recounted (bytesLeft offset : Nat) :
    messageComplete args (s.recounted bytesLeft offset) =
      ((messageComplete args s).1.recounted bytesLeft offset, (messageComplete args s).2) := by
  simp only [messageComplete, Splitter.recounted]
  by_cases short : s.delta.data.length < uint32Sub s.delta.size 7 ∨
      s.delta.data.length < s.delta.size
  · simp only [short, ↓reduceIte]
  by_cases same : (s.delta.data.drop (s.delta.size - 4)).take 3 =
      sprintf03u (getFIXChecksum (s.delta.data.take (uint32Sub s.delta.size 7)))
  · simp only [short, same, ne_eq, not_true_eq_false, ↓reduceIte]
    split
    · rfl
    · rename_i read reads
      by_cases next : read.seqnum = (s.expected + 1) % 2 ^ 64
      · simp only [next, not_true_eq_false, ↓reduceIte]
        exact dispatchMessage_recounted (s := { s with
            erange := s.erange || read.erange
            delta := { s.delta with data := read.msg }
            expected := (s.expected + 1) % 2 ^ 64 })
          ((s.expected + 1) % 2 ^ 64) bytesLeft offset
      · simp only [next, not_false_eq_true, ↓reduceIte]
  · simp only [short, same, ne_eq, not_false_eq_true, ↓reduceIte]

end Counters

end MercuryFix
