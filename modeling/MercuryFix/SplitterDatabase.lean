import MercuryFix.MessageDatabase
import MercuryFix.SplitterSequence

/-!
# The last received number and the database

The splitter counts the messages in memory and stores them in
`RECV_MESSAGES`.  A restarted process takes the largest stored number for the
last received one.  The two agree as long as no message with the next number is
refused for its empty type and none carries `2 ^ 63`, the smallest number to
SQLite.
-/

namespace MercuryFix

open DecimalText ByteBlock

variable {args : SplitterArgs} {s : Splitter}

/-- `RECV_MESSAGES` after some effects of the splitter. -/
def storeEffects (table : List (UInt64 × List UInt8)) :
    List Effect → List (UInt64 × List UInt8)
  | [] => table
  | .storeRecvMsg seqnum _ msg :: rest =>
    storeEffects (storeMsg table seqnum msg) rest
  | _ :: rest => storeEffects table rest

theorem storeEffects_append (table : List (UInt64 × List UInt8)) (first second : List Effect) :
    storeEffects table (first ++ second) = storeEffects (storeEffects table first) second := by
  induction first generalizing table with
  | nil => rfl
  | cons effect first induction => cases effect <;> exact induction _

/-- The byte completes a verified message with the next number that the
database does not see as the latest one. -/
def FallsBehind (args : SplitterArgs) (s : Splitter) (byte : UInt8) : Prop :=
  ∃ message consumed read first,
    progress args s byte = .found message consumed ∧
      InSequence args message read first ∧
      (charEqByte args.soh first = true ∨ read.seqnum = 2 ^ 63)

/-- The test behind `FallsBehind`, on the message that a byte completes. -/
def fallsBehindAt (args : SplitterArgs) : Progress → Bool
  | .moved _ => false
  | .found message _ =>
    match getSequenceNumber args.soh message.delta.size message.delta.data with
    | none => false
    | some read =>
      decide (ChecksumMatches message.delta) &&
        read.seqnum == message.next &&
        match read.msg[msgTypeOffset args message]? with
        | none => false
        | some first => charEqByte args.soh first || read.seqnum == 2 ^ 63

theorem fallsBehindAt_iff {byte : UInt8} :
    fallsBehindAt args (progress args s byte) = true ↔ FallsBehind args s byte := by
  constructor
  · intro test
    unfold fallsBehindAt at test
    split at test
    · cases test
    · rename_i message consumed found
      split at test
      · cases test
      · rename_i read reads
        rw [Bool.and_eq_true, Bool.and_eq_true, decide_eq_true_eq, beq_iff_eq] at test
        obtain ⟨⟨checksum, next⟩, test⟩ := test
        split at test
        · cases test
        · rename_i first firstByte
          rw [Bool.or_eq_true, beq_iff_eq] at test
          exact ⟨message, consumed, read, first, found, ⟨⟨checksum, reads⟩, next, firstByte⟩, test⟩
  · rintro ⟨message, consumed, read, first, found, inSequence, behind⟩
    have next := beq_iff_eq.mpr inSequence.next
    simp only [fallsBehindAt, found, inSequence.reads, inSequence.checksum, decide_true, next,
      inSequence.firstByte, Bool.true_and, Bool.or_eq_true, beq_iff_eq]
    exact behind

instance (args : SplitterArgs) (s : Splitter) (byte : UInt8) :
    Decidable (FallsBehind args s byte) :=
  decidable_of_iff _ fallsBehindAt_iff

section Message

variable {table : List (UInt64 × List UInt8)}

theorem latestSeqnum_delivery {read : SequenceNumberRead} {first : UInt8}
    (latest : latestSeqnum table = s.expected) (inSequence : InSequence args s read first)
    (seen : read.seqnum ≠ 2 ^ 63) :
    latestSeqnum (storeMsg table read.seqnum (read.msg.take s.delta.size)) = s.next := by
  have bound := latestSeqnum_lt table
  have next : read.seqnum = (s.expected + 1) % 2 ^ 64 := inSequence.next
  rw [next] at seen ⊢
  exact latestSeqnum_storeMsg latest (by omega) _

theorem latestSeqnum_messageComplete (latest : latestSeqnum table = s.expected)
    (keepsUp : ∀ read first, InSequence args s read first →
      charEqByte args.soh first = false ∧ read.seqnum ≠ 2 ^ 63)
    (runs : (handled args s).fault = none) :
    latestSeqnum (storeEffects table (messageEffects args s)) = (handled args s).expected := by
  have bound := latestSeqnum_lt table
  obtain ⟨done, outcome, effectsEq, expectedEq, faultEq⟩ := handled_outcome args s
  rw [effectsEq, expectedEq]
  rw [faultEq] at runs
  cases outcome with
  | faulted next fault raised read =>
    rw [raised] at runs
    cases runs
  | badChecksum differs => exact latest
  | outOfSequence read verified other => exact latest
  | emptyType read first inSequence empty =>
    rw [(keepsUp read first inSequence).1] at empty
    cases empty
  | delta read first type inSequence nonempty typed application =>
    exact latestSeqnum_delivery latest inSequence (keepsUp read first inSequence).2
  | oversized read first type inSequence nonempty typed session large =>
    rw [latest] at bound
    exact latest.trans (s.next_back bound).symm
  | echo read first type inSequence nonempty typed session fits =>
    exact latestSeqnum_delivery latest inSequence (keepsUp read first inSequence).2

end Message

theorem latestSeqnum_splitByte {table : List (UInt64 × List UInt8)}
    {byte : UInt8} (sound : Sound args s)
    (latest : latestSeqnum table = s.expected)
    (keepsUp : ¬ FallsBehind args s byte)
    (runs : (splitByte args s byte).1.fault = none) :
    latestSeqnum (storeEffects table (splitByte args s byte).2) =
      (splitByte args s byte).1.expected := by
  by_cases noFault : s.fault = none
  swap
  · rw [splitByte_of_fault noFault]
    exact latest
  cases step : progress args s byte with
  | moved next =>
    have stays := (progress_moved (sound noFault) noFault step).2.1
    rw [splitByte_of_moved step]
    exact latest.trans stays.symm
  | found message consumed =>
    obtain ⟨assembled, expectedEq, -⟩ := progress_found (sound noFault) noFault step
    have effectsEq : (splitByte args s byte).2 = messageEffects args message := by
      rw [splitByte_of_found step]
    rw [effectsEq, splitByte_expected assembled step]
    refine latestSeqnum_messageComplete (latest.trans expectedEq.symm) ?_ (handled_runs step runs)
    intro read first inSequence
    constructor
    · rw [← Bool.not_eq_true]
      exact fun empty => keepsUp ⟨message, consumed, read, first, step, inSequence, .inl empty⟩
    · exact fun sign => keepsUp ⟨message, consumed, read, first, step, inSequence, .inr sign⟩

theorem latestSeqnum_splitBytes {table : List (UInt64 × List UInt8)}
    {stream : List UInt8} (sound : Sound args s)
    (latest : latestSeqnum table = s.expected)
    (keepsUp : ∀ before byte after, stream = before ++ byte :: after →
      ¬ FallsBehind args (splitBytes args s before).1 byte)
    (runs : (splitBytes args s stream).1.fault = none) :
    latestSeqnum (storeEffects table (splitBytes args s stream).2) =
      (splitBytes args s stream).1.expected := by
  induction stream generalizing s table with
  | nil => exact latest
  | cons byte stream induction =>
    have first : (splitByte args s byte).1.fault = none := by
      by_contra fault
      rw [splitBytes_cons, splitBytes_of_fault fault] at runs
      exact fault runs
    have now := latestSeqnum_splitByte sound latest (keepsUp [] byte stream rfl) first
    have later := induction (splitByte_sound sound byte) now (by
      intro before next after splits
      exact keepsUp (byte :: before) next after (by rw [splits]; rfl)) runs
    exact (congrArg latestSeqnum (storeEffects_append table
      (splitByte args s byte).2 _)).trans later

/-- From the latest number of a table on, the last received number stays the
latest number of the table. -/
theorem restart_expects_same (args : SplitterArgs)
    (table : List (UInt64 × List UInt8)) (lastReceived : UInt64)
    (restored : lastReceived.toNat = latestSeqnum table)
    (entries : List FoxtrotEntry)
    (keepsUp : ∀ before byte after, streamOf entries = before ++ byte :: after →
      ¬ FallsBehind args (splitBytes args (.initial lastReceived) before).1
        byte)
    (runs : (splitEntries args (.initial lastReceived) entries).1.fault =
      none) :
    latestSeqnum (storeEffects table
        (splitEntries args (.initial lastReceived) entries).2) =
      (splitEntries args (.initial lastReceived) entries).1.expected := by
  have refines := splitEntries_refines (sound_initial args lastReceived) entries
  have expectedEq : (splitEntries args (.initial lastReceived)
      entries).1.expected = (splitBytes args (.initial lastReceived)
        (streamOf entries)).1.expected := by
    rw [← Splitter.settled_expected]
    exact congrArg (fun done => done.1.expected) refines
  have faultEq : (splitEntries args (.initial lastReceived) entries).1.fault =
      (splitBytes args (.initial lastReceived) (streamOf entries)).1.fault := by
    rw [← Splitter.settled_fault]
    exact congrArg (fun done => done.1.fault) refines
  rw [splitEntries_effects, expectedEq]
  rw [faultEq] at runs
  exact latestSeqnum_splitBytes (sound_initial args lastReceived)
    restored.symm keepsUp runs

theorem restart_expects_same_order :
    latestSeqnum (storeEffects []
      (splitEntries fix41Args (.initial 0) [orderEntry]).2) =
        (splitEntries fix41Args (.initial 0) [orderEntry]).1.expected ∧
    (splitEntries fix41Args (.initial 0) [orderEntry]).1.expected = 1 := by
  refine ⟨restart_expects_same fix41Args [] 0 rfl [orderEntry] ?_
    (by decide +kernel), by decide +kernel⟩
  exact MealyMachine.forall_split (by decide +kernel)

def typelessEntry : FoxtrotEntry where
  data :=
    let summed := fix41Args.beginString ++ ascii ['9'] ++
      1 :: (ascii ['3', '5', '='] ++ 1 :: ascii ['3', '4', '=', '1'] ++ [1])
    summed ++ ascii ['1', '0', '='] ++ sprintf03u (getFIXChecksum summed) ++ [1]
  fits := by decide +kernel

/-- A message with an empty MsgType is counted and not stored. -/
theorem typeless_message_not_stored :
    (splitEntries fix41Args (.initial 0) [typelessEntry]).1.fault = none ∧
    (splitEntries fix41Args (.initial 0) [typelessEntry]).1.expected = 1 ∧
    latestSeqnum (storeEffects []
      (splitEntries fix41Args (.initial 0) [typelessEntry]).2) = 0 := by
  decide +kernel

end MercuryFix
