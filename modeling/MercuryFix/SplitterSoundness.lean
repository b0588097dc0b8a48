import MercuryFix.FixMessageFormat
import MercuryFix.MessageTypeLookup
import MercuryFix.SplitterChunks

/-!
# What the splitter has verified about a delivered message

The splitter trusts the declared length and compares three checksum digits.
It looks neither for the tags of MsgType and CheckSum nor for the delimiters
around them, and `get_sequence_number` overwrites the byte behind the digits
of MsgSeqNum.
-/

namespace MercuryFix

open DecimalText ByteBlock

variable {args : SplitterArgs} {s : Splitter}

theorem found_of_effect {byte : UInt8} {effect : Effect}
    (emitted : effect ∈ (splitByte args s byte).2) :
    ∃ message consumed, progress args s byte = .found message consumed ∧
      effect ∈ messageEffects args message := by
  cases step : progress args s byte with
  | moved next =>
    rw [splitByte_of_moved step] at emitted
    cases emitted
  | found message consumed =>
    rw [splitByte_of_found step] at emitted
    exact ⟨message, consumed, rfl, emitted⟩

inductive Commits (size offset : Nat) (data : List UInt8) : Effect → Prop
  | delta : Commits size offset data (.deltaCommit size offset data)
  | echo : Commits size offset data (.echoCommit size offset data)

theorem inSequence_of_commit {size offset : Nat} {data : List UInt8}
    {effect : Effect} (commits : Commits size offset data effect)
    (emitted : effect ∈ messageEffects args s) :
    ∃ read first, InSequence args s read first ∧
      charEqByte args.soh first = false ∧ size = s.delta.size ∧
      offset = msgTypeOffset args s % 2 ^ 32 ∧
      data = read.msg.take s.delta.size := by
  have outcome := messageComplete_outcome args s
  unfold messageEffects at emitted
  generalize messageComplete args s = done at outcome emitted
  cases outcome with
  | faulted next fault raised read => cases emitted
  | badChecksum differs => cases emitted
  | outOfSequence read verified other =>
    rw [List.mem_singleton] at emitted
    subst emitted
    cases commits
  | emptyType read first inSequence empty =>
    rw [List.mem_singleton] at emitted
    subst emitted
    cases commits
  | delta read first type inSequence nonempty typed application =>
    rcases List.mem_pair.mp emitted with rfl | rfl
    · cases commits
    · cases commits
      exact ⟨read, first, inSequence, nonempty, rfl, rfl, rfl⟩
  | oversized read first type inSequence nonempty typed session large =>
    cases emitted
  | echo read first type inSequence nonempty typed session fits =>
    rcases List.mem_pair.mp emitted with rfl | rfl
    · cases commits
    · cases commits
      exact ⟨read, first, inSequence, nonempty, rfl, rfl, rfl⟩

theorem getSequenceNumber_msg {soh : UInt8} {len : Nat} {msg : List UInt8}
    {read : SequenceNumberRead} (reads : getSequenceNumber soh len msg = some read) :
    ∃ position, read.msg = msg.set position soh := by
  unfold getSequenceNumber at reads
  split at reads
  · cases reads
    exact ⟨msg.length, (List.set_eq_of_length_le (le_refl _)).symm⟩
  · dsimp only at reads
    split at reads
    · cases reads
      exact ⟨_, rfl⟩
    · cases reads

/-- What holds of a message the splitter found: `text` are the digits of
BodyLength and `rest` is everything behind them. -/
structure ReceivedMessage (args : SplitterArgs) (text rest : List UInt8) :
    Prop where
  digits : ∀ byte ∈ text, isDigit byte = true
  nonempty : text ≠ []
  short : text.length ≤ 20
  length : rest.length = (value text % 2 ^ 32 + 8) % 2 ^ 32
  delimiter : rest ≠ [] → rest.head? = some args.soh
  checksum : 7 ≤ (args.beginString ++ text ++ rest).length →
    ((args.beginString ++ text ++ rest).drop
        ((args.beginString ++ text ++ rest).length - 4)).take 3 =
      sprintf03u (getFIXChecksum
        ((args.beginString ++ text ++ rest).take ((args.beginString ++ text ++ rest).length - 7)))

/-- A BodyLength that does not wrap counts the bytes between its delimiter and
a trailer of seven bytes that holds the checksum. -/
theorem ReceivedMessage.shape {text rest : List UInt8} (received : ReceivedMessage args text rest)
    (small : value text + 8 < 2 ^ 32) :
    ∃ body trailer, rest = args.soh :: body ++ trailer ∧
      body.length = value text ∧ trailer.length = 7 ∧
      (trailer.drop 3).take 3 = sprintf03u (getFIXChecksum
        (args.beginString ++ text ++ args.soh :: body)) := by
  have length := received.length
  cases rest with
  | nil =>
    rw [List.length_nil] at length
    omega
  | cons first behind =>
    have delimiter : first = args.soh := by
      simpa using received.delimiter (List.cons_ne_nil first behind)
    rw [List.length_cons] at length
    have bodyLength : (behind.take (value text)).length = value text := by
      rw [List.length_take]
      omega
    have trailerLength : (behind.drop (value text)).length = 7 := by
      rw [List.length_drop]
      omega
    have checksum := received.checksum (by simp; omega)
    have whole : args.beginString ++ text ++ first :: behind =
        (args.beginString ++ text ++ args.soh :: behind.take (value text)) ++
          behind.drop (value text) := by
      rw [delimiter]
      simp
    rw [whole, List.length_append, trailerLength, Nat.add_sub_cancel, List.take_left] at checksum
    refine ⟨behind.take (value text), behind.drop (value text), ?_, bodyLength, trailerLength, ?_⟩
    · rw [delimiter]
      simp
    · have position : (args.beginString ++ text ++
          args.soh :: behind.take (value text)).length + 7 - 4 =
            (args.beginString ++ text ++ args.soh :: behind.take (value text)).length + 3 := by
        omega
      rw [← checksum, position, List.drop_length_add_append]

/-- The bytes behind the BodyLength digits of the message in the delta
entry. -/
def Splitter.behindDigits (args : SplitterArgs) (s : Splitter) : List UInt8 :=
  (s.delta.data.take s.delta.size).drop (headerLength args s)

theorem Assembled.header_le (assembled : Assembled args s) :
    headerLength args s ≤ s.delta.size := by
  have covered := assembled.covered
  have behind := assembled.behind
  rw [assembled.complete] at covered
  omega

theorem Assembled.message_eq (assembled : Assembled args s) : s.delta.data.take s.delta.size =
      args.beginString ++ cString s.lengthStr ++ s.behindDigits args := by
  have header : (s.delta.data.take s.delta.size).take (headerLength args s) =
      args.beginString ++ cString s.lengthStr := by
    rw [List.take_take, Nat.min_eq_left assembled.header_le]
    exact assembled.header
  rw [← header]
  exact (List.take_append_drop _ _).symm

theorem Assembled.length_message (assembled : Assembled args s) :
    (s.delta.data.take s.delta.size).length = s.delta.size := by
  rw [List.length_take, Nat.min_eq_left assembled.room]

theorem Assembled.head?_behindDigits (assembled : Assembled args s)
    (nonempty : s.behindDigits args ≠ []) :
    (s.behindDigits args).head? = some args.soh := by
  have inside : headerLength args s < s.delta.size := by
    by_contra beyond
    apply nonempty
    apply List.drop_of_length_le
    rw [assembled.length_message]
    omega
  have covered := assembled.covered
  rw [assembled.complete, Nat.add_zero] at covered
  rw [Splitter.behindDigits, List.head?_drop, List.getElem?_take_of_lt inside]
  exact assembled.delimiter (covered ▸ inside)

theorem checksum_of_matches (checksum : ChecksumMatches s.delta) (long : 7 ≤ s.delta.size) :
    ((s.delta.data.take s.delta.size).drop (s.delta.size - 4)).take 3 =
      sprintf03u (getFIXChecksum ((s.delta.data.take s.delta.size).take (s.delta.size - 7))) := by
  have last : s.delta.size - (s.delta.size - 4) = 4 := by omega
  have covered : uint32Sub s.delta.size 7 = s.delta.size - 7 := if_pos long
  rw [List.drop_take, last, List.take_take, List.take_take, Nat.min_eq_left (by omega : 3 ≤ 4),
    Nat.min_eq_left (Nat.sub_le s.delta.size 7), ← covered]
  exact checksum

theorem Assembled.received (assembled : Assembled args s) (checksum : ChecksumMatches s.delta) :
    ReceivedMessage args (cString s.lengthStr) (s.behindDigits args) where
  digits := assembled.text.digits
  nonempty := by
    intro empty
    have nonzero := assembled.nonzero
    rw [empty, value_nil] at nonzero
    exact nonzero rfl
  short := assembled.short
  length := by
    have size := assembled.size
    rw [Splitter.behindDigits, List.length_drop, assembled.length_message]
    omega
  delimiter := assembled.head?_behindDigits
  checksum := by
    rw [← assembled.message_eq, assembled.length_message]
    exact checksum_of_matches checksum

theorem ten_areDigits : ∀ byte ∈ ascii ['1', '0'], isDigit byte = true := by
  decide +kernel

theorem ten_closed : (1 : UInt8) ∉ ascii ['1', '0'] := by
  decide

theorem order_typed : ascii ['D'] ≠ [] := by
  decide

theorem order_delimited : (1 : UInt8) ∉ ascii ['D'] := by
  decide

def orderMessage : FixMessage 1 where
  digits := ascii ['1', '0']
  msgType := ascii ['D']
  fields := ascii ['3', '4', '=', '1'] ++ [1]
  areDigits := ten_areDigits
  closed := ten_closed
  typed := order_typed
  delimited := order_delimited
  ends := by decide
  counts := by decide

def orderEntry : FoxtrotEntry where
  data := orderMessage.bytes fix41Args.beginString
  fits := by decide +kernel

theorem orderMessage_carries : CarriesNumber 1 (orderMessage.bytes fix41Args.beginString) 1 :=
  ⟨fix41Args.beginString ++ ascii ['1', '0'] ++ 1 :: ascii ['3', '5', '=', 'D'],
    ascii ['1'], orderMessage.trailer fix41Args.beginString,
    by decide +kernel, by decide +kernel, by decide +kernel,
    by decide +kernel, by decide, by decide⟩

section Reactions

/-- The value in front of the first delimiter behind the offset. -/
def ValueAt (soh : UInt8) (data : List UInt8) (offset : Nat) (text : List UInt8) : Prop :=
  (∃ rest, data.drop offset = text ++ soh :: rest) ∧ soh ∉ text ∧ (0 : UInt8) ∉ text

/-- What the splitter can do about one message. -/
inductive Reaction (args : SplitterArgs) : List Effect → Prop
  | silent : Reaction args []
  | request (expected : Nat) : Reaction args [.sendResendRequestMessage expected]
  | reject (number : Nat) :
      Reaction args [.sendSessionLevelRejectMessage number "malformed message type value"]
  | application {number size offset : Nat} {data : List UInt8}
      (typed : ∀ text, ValueAt args.soh data offset text → text ∉ sessionTypeTexts) :
      Reaction args [.storeRecvMsg number size data, .deltaCommit size offset data]
  | session {number size offset : Nat} {data : List UInt8}
      (typed : ∀ text, ValueAt args.soh data offset text → text ∈ sessionTypeTexts)
      (fits : size ≤ echoMaxDataSize) :
      Reaction args [.storeRecvMsg number size data, .echoCommit size offset data]

theorem Assembled.session_iff (assembled : Assembled args s) {msg text : List UInt8}
    {type : FixMsgType}
    (typed : getFixMsgtype args.soh (msg.drop (msgTypeOffset args s)) = some type)
    (value : ValueAt args.soh (msg.take s.delta.size) (msgTypeOffset args s % 2 ^ 32) text) :
    isSessionMessage type = true ↔ text ∈ sessionTypeTexts := by
  obtain ⟨⟨rest, split⟩, closed, noNul⟩ := value
  have small : msgTypeOffset args s < 2 ^ 32 := by
    have short := assembled.short
    have beginFits := args.fits
    unfold msgTypeOffset headerLength
    omega
  rw [Nat.mod_eq_of_lt small] at split
  have bounded := assembled.bounded
  have length := congrArg List.length split
  rw [List.length_drop, List.length_append, List.length_cons] at length
  have taken := List.length_take_le s.delta.size msg
  have inside : text.length < 2 ^ 32 := by omega
  have whole : msg.drop (msgTypeOffset args s) =
      text ++ args.soh :: (rest ++ msg.drop s.delta.size) := by
    conv_lhs => rw [← List.take_append_drop s.delta.size msg]
    rw [List.drop_append_of_le_length (by omega), split]
    simp
  rw [whole, getFixMsgtype_of_delimited closed inside, Option.some.injEq] at typed
  rw [← typed]
  exact isSessionMessage_lookupMsgtype noNul

theorem Assembled.reaction (assembled : Assembled args s) :
    Reaction args (messageEffects args s) := by
  have outcome := messageComplete_outcome args s
  unfold messageEffects
  generalize messageComplete args s = done at outcome
  cases outcome with
  | faulted | badChecksum | oversized => exact .silent
  | outOfSequence => exact .request _
  | emptyType => exact .reject _
  | delta read first type inSequence nonempty typed application =>
    refine .application fun text value member => ?_
    rw [(assembled.session_iff typed value).mpr member] at application
    cases application
  | echo read first type inSequence nonempty typed session fits =>
    exact .session (fun text value => (assembled.session_iff typed value).mp session) fits

theorem splitByte_reaction (sound : Sound args s) (byte : UInt8) :
    Reaction args (splitByte args s byte).2 := by
  cases step : progress args s byte with
  | moved next =>
    rw [splitByte_of_moved step]
    exact .silent
  | found message consumed =>
    have noFault := noFault_of_found step
    rw [splitByte_of_found step]
    exact (progress_found (sound noFault) noFault step).1.reaction

/-- Whatever arrives, in whatever pieces: every message is stored directly before it
is handed on, with the same bytes, and the session queue gets the eight session types
and no others. -/
theorem entries_reactions (args : SplitterArgs) (lastReceived : UInt64)
    (entries : List FoxtrotEntry) :
    ∃ reactions : List (List Effect),
      (splitEntries args (.initial lastReceived) entries).2 = reactions.flatten ∧
      ∀ reaction ∈ reactions, Reaction args reaction := by
  have bytes (stream : List UInt8) {s : Splitter} (sound : Sound args s) :
      ∃ reactions : List (List Effect),
      (MealyMachine.run (splitByte args) s stream).2 = reactions.flatten ∧
      ∀ reaction ∈ reactions, Reaction args reaction := by
    induction stream generalizing s with
    | nil => exact ⟨[], rfl, by simp⟩
    | cons byte stream induction =>
      obtain ⟨reactions, emits, each⟩ := induction (splitByte_sound sound byte)
      refine ⟨(splitByte args s byte).2 :: reactions, ?_, ?_⟩
      · rw [MealyMachine.run_cons, emits, List.flatten_cons]
      · exact List.forall_mem_cons.mpr ⟨splitByte_reaction sound byte, each⟩
  rw [splitEntries_effects]
  exact bytes _ (sound_initial args lastReceived)

end Reactions

end MercuryFix
