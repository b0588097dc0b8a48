import MercuryFix.SplitterSoundness

/-!
# The sequence numbers of delivered messages

The expected number moves by one with every message that carries it, whether
the message is delivered or refused for an empty MsgType.  The number
`ULLONG_MAX` is never read from a message, so that the counter cannot pass it
unless it starts there.
-/

namespace MercuryFix

open DecimalText ByteBlock

variable {args : SplitterArgs} {s : Splitter}

/-- The numbers under which messages are stored and then committed, in commit
order. -/
def deliveredNumbers : List Effect → List Nat
  | [] => []
  | .storeRecvMsg seqnum _ _ :: .deltaCommit _ _ _ :: rest =>
    seqnum :: deliveredNumbers rest
  | .storeRecvMsg seqnum _ _ :: .echoCommit _ _ _ :: rest =>
    seqnum :: deliveredNumbers rest
  | _ :: rest => deliveredNumbers rest

theorem seqnum_lt_of_getSequenceNumber {soh : UInt8} {len : Nat}
    {msg : List UInt8} {read : SequenceNumberRead}
    (reads : getSequenceNumber soh len msg = some read) :
    read.seqnum < 2 ^ 64 - 1 := by
  unfold getSequenceNumber at reads
  split at reads
  · cases reads
    norm_num
  · dsimp only at reads
    split at reads
    · cases reads
      dsimp only
      split
      · norm_num
      · omega
    · cases reads

/-- The byte completes a checksum-valid message with the next number and an
empty MsgType value. -/
def SkipsEmptyType (args : SplitterArgs) (s : Splitter) (byte : UInt8) (number : Nat) : Prop :=
  ∃ message consumed read, progress args s byte = .found message consumed ∧
    InSequence args message read args.soh ∧ read.seqnum = number

/-- What a complete message does to the numbers: nothing, a delivery of the
next number, or a refusal of the next number for its empty type. -/
inductive Counting (args : SplitterArgs) (s : Splitter) : Prop
  | quiet
      (silent : ∀ tail, deliveredNumbers (messageEffects args s ++ tail) =
        deliveredNumbers tail)
      (stays : (handled args s).fault = none →
        (handled args s).expected = s.expected)
  | delivered
      (delivers : ∀ tail, deliveredNumbers (messageEffects args s ++ tail) =
        (s.expected + 1) :: deliveredNumbers tail)
      (bounded : s.expected + 1 < 2 ^ 64 - 1)
      (advances : (handled args s).expected = s.expected + 1)
  | skipped (read : SequenceNumberRead)
      (silent : ∀ tail, deliveredNumbers (messageEffects args s ++ tail) =
        deliveredNumbers tail)
      (inSequence : InSequence args s read args.soh)
      (number : read.seqnum = s.expected + 1)
      (bounded : s.expected + 1 < 2 ^ 64 - 1)
      (advances : (handled args s).expected = s.expected + 1)

theorem InSequence.number {read : SequenceNumberRead} {first : UInt8}
    (inSequence : InSequence args s read first) (counter : s.expected < 2 ^ 64 - 1) :
    read.seqnum = s.expected + 1 ∧ s.next = s.expected + 1 ∧ s.expected + 1 < 2 ^ 64 - 1 := by
  have small := seqnum_lt_of_getSequenceNumber inSequence.reads
  have next := inSequence.next
  unfold Splitter.next at *
  omega

/-- Some byte of the stream completes a message with this number and an empty
MsgType value. -/
def SkippedIn (args : SplitterArgs) (s : Splitter) (stream : List UInt8) (number : Nat) : Prop :=
  ∃ before byte after, stream = before ++ byte :: after ∧
    SkipsEmptyType args (splitBytes args s before).1 byte number

theorem SkippedIn.cons {byte : UInt8} {stream : List UInt8} {number : Nat}
    (skipped : SkippedIn args (splitByte args s byte).1 stream number) :
    SkippedIn args s (byte :: stream) number := by
  obtain ⟨before, next, after, rfl, skips⟩ := skipped
  exact ⟨byte :: before, next, after, rfl, skips⟩

/-- The numbers a stream delivers are above `base` and increase, and every
number that is passed over belongs to a message with an empty MsgType. -/
structure InOrder (args : SplitterArgs) (base : Nat) (s : Splitter)
    (stream : List UInt8) : Prop where
  increasing : (deliveredNumbers (splitBytes args s stream).2).Pairwise (· < ·)
  above : ∀ number ∈ deliveredNumbers (splitBytes args s stream).2, base < number
  accounted : ∀ number, base < number →
    (∃ later ∈ deliveredNumbers (splitBytes args s stream).2, number < later) →
    number ∈ deliveredNumbers (splitBytes args s stream).2 ∨ SkippedIn args s stream number

section Steps

variable {base : Nat} {byte : UInt8} {stream : List UInt8}

theorem InOrder.silent {later : Nat} (rest : InOrder args later (splitByte args s byte).1 stream)
    (silent : ∀ tail, deliveredNumbers ((splitByte args s byte).2 ++ tail) =
      deliveredNumbers tail) (grows : base ≤ later)
    (skips : ∀ number, base < number → number ≤ later → SkipsEmptyType args s byte number) :
    InOrder args base s (byte :: stream) := by
  have numbers : deliveredNumbers (splitBytes args s (byte :: stream)).2 =
      deliveredNumbers (splitBytes args (splitByte args s byte).1 stream).2 :=
    silent _
  constructor
  · rw [numbers]
    exact rest.increasing
  · rw [numbers]
    intro number member
    exact grows.trans_lt (rest.above number member)
  · rw [numbers]
    intro number greater passed
    rcases Nat.lt_or_ge later number with beyond | skipped
    · exact (rest.accounted number beyond passed).imp_right SkippedIn.cons
    · exact .inr ⟨[], byte, stream, rfl, skips number greater skipped⟩

theorem InOrder.quiet (rest : InOrder args base (splitByte args s byte).1 stream)
    (silent : ∀ tail, deliveredNumbers ((splitByte args s byte).2 ++ tail) =
      deliveredNumbers tail) :
    InOrder args base s (byte :: stream) :=
  rest.silent silent le_rfl fun _ greater skipped => absurd skipped greater.not_ge

theorem InOrder.delivered (rest : InOrder args (base + 1) (splitByte args s byte).1 stream)
    (delivers : ∀ tail, deliveredNumbers ((splitByte args s byte).2 ++ tail) =
      (base + 1) :: deliveredNumbers tail) :
    InOrder args base s (byte :: stream) := by
  have numbers : deliveredNumbers (splitBytes args s (byte :: stream)).2 =
      (base + 1) :: deliveredNumbers (splitBytes args (splitByte args s byte).1 stream).2 :=
    delivers _
  constructor
  · rw [numbers, List.pairwise_cons]
    exact ⟨rest.above, rest.increasing⟩
  · rw [numbers]
    rintro number member
    rcases List.mem_cons.mp member with rfl | later
    · exact Nat.lt_succ_self base
    · exact Nat.lt_of_succ_lt (rest.above number later)
  · rw [numbers]
    rintro number greater ⟨later, member, passed⟩
    rcases Nat.eq_or_lt_of_le (Nat.succ_le_of_lt greater) with rfl | beyond
    · exact Or.inl List.mem_cons_self
    · have behind : later ∈ deliveredNumbers
          (splitBytes args (splitByte args s byte).1 stream).2 := by
        rcases List.mem_cons.mp member with rfl | behind
        · omega
        · exact behind
      rcases rest.accounted number beyond ⟨later, behind, passed⟩ with
        found | skipped
      · exact Or.inl (List.mem_cons_of_mem _ found)
      · exact Or.inr skipped.cons

theorem InOrder.skipped (rest : InOrder args (base + 1) (splitByte args s byte).1 stream)
    (silent : ∀ tail, deliveredNumbers ((splitByte args s byte).2 ++ tail) = deliveredNumbers tail)
    (skips : SkipsEmptyType args s byte (base + 1)) :
    InOrder args base s (byte :: stream) := by
  apply rest.silent silent (Nat.le_succ base)
  intro number greater skipped
  obtain rfl : number = base + 1 := by omega
  exact skips

end Steps

end MercuryFix
