import MercuryFix.SplitterChunks

/-!
# The splitter's writes into the delta entry

`body_length`, the number of bytes left and the size of the delta entry are
`uint32_t`, while a BodyLength has up to twenty digits.  As long as the size of
every accepted message fits 32 bits, all copies stay inside the allocated
block.  A larger BodyLength makes the block too small for the header already.
-/

namespace MercuryFix

open DecimalText ByteBlock

variable {args : SplitterArgs} {s : Splitter}

def Splitter.bodyLengthText (s : Splitter) : List UInt8 := s.lengthStr.take s.l

def bodyLengthAccepted (args : SplitterArgs) (s : Splitter) (byte : UInt8) : Bool :=
  decide (s.fault = none ∧ s.state = .findingBodyLength ∧ s.l ≠ 21 ∧
    byte = args.soh ∧ s.erange = false ∧
    value s.bodyLengthText ≤ 2 ^ 63 - 1 ∧
    value s.bodyLengthText % 2 ^ 32 ≠ 0)

/-- The bytes the message takes, with `body_length` as stored in its
`uint32_t` but without a wrap-around of the sum. -/
def unwrappedSize (args : SplitterArgs) (s : Splitter) : Nat :=
  args.beginString.length + s.bodyLengthText.length + value s.bodyLengthText % 2 ^ 32 + 8

/-- An accepted BodyLength whose message size fits 32 bits. -/
def BodyLengthFits (args : SplitterArgs) (s : Splitter) (byte : UInt8) : Prop :=
  bodyLengthAccepted args s byte = true → unwrappedSize args s < 2 ^ 32

instance (args : SplitterArgs) (s : Splitter) (byte : UInt8) :
    Decidable (BodyLengthFits args s byte) :=
  inferInstanceAs (Decidable (_ → _))

def Splitter.closed (s : Splitter) : Splitter :=
  { s with lengthStr := s.lengthStr.set s.l 0, l := 0 }

theorem findingBodyLength_of_accepted (consistent : Consistent args s)
    {byte : UInt8} (accepted : bodyLengthAccepted args s byte = true) :
    findingBodyLength args byte s =
      acceptBodyLength args (value s.bodyLengthText % 2 ^ 32) s.bodyLengthText s.closed := by
  obtain ⟨_, finding, notEnd, delimiter, cleared, small, nonzero⟩ := of_decide_eq_true accepted
  obtain ⟨atMost, digits⟩ := consistent.finding finding
  have number : atoll (s.lengthStr.take s.l) = (value s.bodyLengthText, false) := atoll_of_le small
  rw [delimiter, findingBodyLength_delimiter (by omega) consistent.lengthStr digits.digits, number]
  simp only [cleared, Bool.or_false, Bool.false_eq_true, or_false]
  rw [if_neg nonzero]
  unfold Splitter.closed
  rw [cleared]
  rfl

theorem findingBodyLength_unusable (consistent : Consistent args s)
    (noFault : s.fault = none) (finding : s.state = .findingBodyLength)
    (inside : s.l ≠ 21) (refused : bodyLengthAccepted args s args.soh = false) :
    findingBodyLength args args.soh s = ({ s with
          lengthStr := s.lengthStr.set s.l 0
          l := 0
          erange := s.erange || (atoll (s.lengthStr.take s.l)).2
          state := .findingBeginString }, false) := by
  obtain ⟨atMost, digits⟩ := consistent.finding finding
  rw [findingBodyLength_delimiter (by omega) consistent.lengthStr digits.digits]
  apply if_pos
  by_contra accepted
  rw [not_or, Bool.not_eq_true, Bool.or_eq_false_iff] at accepted
  obtain ⟨nonzero, cleared, inRange⟩ := accepted
  have small : value (s.lengthStr.take s.l) ≤ 2 ^ 63 - 1 := by
    simpa only [atoll, decide_eq_false_iff_not, not_lt] using inRange
  rw [atoll_of_le small] at nonzero
  exact of_decide_eq_false refused ⟨noFault, finding, inside, rfl, cleared, small, nonzero⟩

theorem findingBodyLength_of_not_accepted (consistent : Consistent args s)
    (noFault : s.fault = none) (finding : s.state = .findingBodyLength)
    {byte : UInt8} (refused : bodyLengthAccepted args s byte = false) :
    (findingBodyLength args byte s).1.fault = none := by
  obtain ⟨atMost, digits⟩ := consistent.finding finding
  by_cases atEnd : s.l = 21
  · rw [findingBodyLength, if_pos atEnd]
    exact noFault
  by_cases delimiter : byte = args.soh
  · subst delimiter
    rw [findingBodyLength_unusable consistent noFault finding atEnd refused]
    exact noFault
  · rw [findingBodyLength_of_ne (Ne.symm delimiter), if_neg atEnd]
    split
    · exact noFault
    · exact noFault

theorem bodyLengthAccepted_of_not_finding
    (elsewhere : s.state ≠ .findingBodyLength) (byte : UInt8) :
    bodyLengthAccepted args s byte = false := by
  simp [bodyLengthAccepted, elsewhere]

theorem headerByte_of_not_accepted (consistent : Consistent args s)
    (noFault : s.fault = none) {byte : UInt8} (refused : bodyLengthAccepted args s byte = false) :
    (headerByte args byte s).1.fault = none := by
  cases phase : s.state with
  | copyingBody =>
    rw [headerByte_of_copying phase]
    exact noFault
  | findingBodyLength =>
    rw [headerByte_of_bodyLength phase]
    exact findingBodyLength_of_not_accepted consistent noFault phase refused
  | findingBeginString =>
    rw [headerByte_of_beginString phase]
    rcases findingBeginString_cases args byte s with found | ⟨l, searching⟩
    · have started : Consistent args { s with l := 0, state := .findingBodyLength } :=
        { consistent with
          finding := fun _ => ⟨Nat.zero_le 21, .nil args⟩
          copying := by intro impossible; cases impossible }
      rw [found, if_pos rfl]
      apply findingBodyLength_of_not_accepted started noFault rfl
      simp [bodyLengthAccepted, Splitter.bodyLengthText]
    · rw [searching]
      exact noFault

theorem reserve_room_of_mallocs (mallocs : ∀ count, args.mallocSucceeds count = true)
    (consistent : Consistent args s) {bodyLength : Nat} {text : List UInt8}
    (fits : messageSize args bodyLength text < 2 ^ 32) :
    messageSize args bodyLength text ≤ (s.reserve args bodyLength text).delta.data.length := by
  by_cases grows : s.delta.size < messageSize args bodyLength text
  · simp only [Splitter.reserve, if_pos grows, List.length_replicate]
    omega
  · have backed := consistent.room.resolve_right (by
      rintro ⟨_, count, failed⟩
      rw [mallocs count] at failed
      cases failed)
    simp only [Splitter.reserve, if_neg grows]
    omega

theorem messageSize_eq_unwrappedSize (fits : unwrappedSize args s < 2 ^ 32) :
    messageSize args (value s.bodyLengthText % 2 ^ 32) s.bodyLengthText = unwrappedSize args s := by
  unfold messageSize
  unfold unwrappedSize at fits ⊢
  omega

def Splitter.opened (args : SplitterArgs) (s : Splitter) : Splitter :=
  let reserved := s.closed.reserve args (value s.bodyLengthText % 2 ^ 32) s.bodyLengthText
  { reserved with
    delta := { reserved.delta with
      data := blit reserved.delta.data 0 (args.beginString ++ s.bodyLengthText) }
    offset := args.beginString.length + s.bodyLengthText.length
    state := .copyingBody }

theorem headerByte_of_accepted (mallocs : ∀ count, args.mallocSucceeds count = true)
    (consistent : Consistent args s) {byte : UInt8}
    (accepted : bodyLengthAccepted args s byte = true)
    (fits : unwrappedSize args s < 2 ^ 32) :
    headerByte args byte s = (s.opened args, true) ∧
      unwrappedSize args s ≤ (s.opened args).delta.data.length ∧
      (s.opened args).bytesLeftToCopy = value s.bodyLengthText % 2 ^ 32 + 8 := by
  obtain ⟨_, finding, _, _, _, _, _⟩ := of_decide_eq_true accepted
  have unwrapped := messageSize_eq_unwrappedSize fits
  have enough := reserve_room_of_mallocs mallocs
    (consistent.close finding s.erange) (unwrapped.trans_lt fits)
  have header : args.beginString.length + s.bodyLengthText.length ≤
      (s.closed.reserve args (value s.bodyLengthText % 2 ^ 32)
        s.bodyLengthText).delta.data.length :=
    (Nat.le_add_right _ _).trans enough
  have width : 0 + (args.beginString ++ s.bodyLengthText).length ≤
      (s.closed.reserve args (value s.bodyLengthText % 2 ^ 32)
        s.bodyLengthText).delta.data.length := by
    rw [List.length_append]
    omega
  refine ⟨?_, ?_, ?_⟩
  · rw [headerByte_of_bodyLength finding, findingBodyLength_of_accepted consistent accepted,
      acceptBodyLength_of_room (Or.inr (mallocs _)), writeHeader_of_fits header]
    rfl
  · change _ ≤ (blit _ 0 (args.beginString ++ s.bodyLengthText)).length
    rw [length_blit width, ← unwrapped]
    exact enough
  · change (value s.bodyLengthText % 2 ^ 32 + 8) % 2 ^ 32 = _
    unfold unwrappedSize at fits
    omega

theorem outcome_noWrite {done : Splitter × List Effect}
    (noFault : s.fault = none) (outcome : Outcome args s done) :
    done.1.fault ≠ some .deltaWrite := by
  have clean : s.fault ≠ some .deltaWrite := by simp [noFault]
  cases outcome with
  | faulted next fault raised read =>
    rw [raised]
    simpa using read
  | badChecksum differs => exact clean
  | outOfSequence read verified other => exact clean
  | emptyType read first inSequence empty => exact clean
  | delta read first type inSequence nonempty typed application => exact clean
  | oversized read first type inSequence nonempty typed session large =>
    rw [Splitter.counted_fault]
    exact clean
  | echo read first type inSequence nonempty typed session fits => exact clean

theorem handled_noWrite (noFault : s.fault = none) : (handled args s).fault ≠ some .deltaWrite :=
  outcome_noWrite noFault (messageComplete_outcome args s)

theorem splitByte_noWrite_of_found {byte : UInt8} {message : Splitter}
    {consumed : Bool} (assembled : Assembled args message)
    (found : progress args s byte = .found message consumed) :
    (splitByte args s byte).1.fault ≠ some .deltaWrite := by
  rw [splitByte_of_found found]
  dsimp only
  split
  · rw [Splitter.settled_fault]
    exact handled_noWrite assembled.noFault
  · rename_i again
    rw [Bool.or_eq_true, not_or, Option.not_isSome_iff_eq_none] at again
    have consistent := handled_sound assembled.restarted again.2
    have safe := headerByte_of_not_accepted consistent again.2
      (bodyLengthAccepted_of_not_finding (by simp [handled_state]) byte)
    rw [Splitter.settled_fault, safe]
    simp

theorem splitByte_noWrite (mallocs : ∀ count, args.mallocSucceeds count = true)
    (consistent : Consistent args s) (noFault : s.fault = none)
    {byte : UInt8} (fits : BodyLengthFits args s byte) :
    (splitByte args s byte).1.fault ≠ some .deltaWrite := by
  have headerSafe : (headerByte args byte s).1.fault = none := by
    cases accepted : bodyLengthAccepted args s byte with
    | false => exact headerByte_of_not_accepted consistent noFault accepted
    | true =>
      rw [(headerByte_of_accepted mallocs consistent accepted (fits accepted)).1]
      exact noFault
  cases step : progress args s byte with
  | found message consumed =>
    exact splitByte_noWrite_of_found (progress_found consistent noFault step).1 step
  | moved next =>
    rw [splitByte_of_moved step]
    cases accepts : (headerByte args byte s).2 with
    | false =>
      rw [progress_of_refused noFault accepts] at step
      cases step
      rw [Splitter.settled_fault, headerSafe]
      simp
    | true =>
      have ready := (headerByte_ready consistent noFault accepts).1
      rcases Nat.eq_zero_or_pos (headerByte args byte s).1.bytesLeftToCopy with wrapped | left
      · rw [progress_of_wrapped noFault accepts wrapped] at step
        cases step
      · rw [progress_of_copied noFault accepts ready left] at step
        split at step
        · cases step
        · cases step
          change (headerByte args byte s).1.fault ≠ some .deltaWrite
          rw [headerSafe]
          simp

/-- A sound splitter that never wrote outside its block. -/
structure Unwritten (args : SplitterArgs) (s : Splitter) : Prop where
  sound : Sound args s
  noWrite : s.fault ≠ some .deltaWrite

theorem Unwritten.splitByte (mallocs : ∀ count, args.mallocSucceeds count = true)
    (unwritten : Unwritten args s) {byte : UInt8}
    (fits : BodyLengthFits args s byte) :
    Unwritten args (splitByte args s byte).1 := by
  refine ⟨splitByte_sound unwritten.sound byte, ?_⟩
  by_cases noFault : s.fault = none
  · exact splitByte_noWrite mallocs (unwritten.sound noFault) noFault fits
  · rw [splitByte_of_fault noFault]
    exact unwritten.noWrite

theorem splitByte_allocates (mallocs : ∀ count, args.mallocSucceeds count = true)
    (consistent : Consistent args s) {byte : UInt8}
    (accepted : bodyLengthAccepted args s byte = true)
    (fits : BodyLengthFits args s byte) :
    unwrappedSize args s ≤ (splitByte args s byte).1.delta.data.length := by
  have noFault := (of_decide_eq_true accepted).1
  have nonzero := (of_decide_eq_true accepted).2.2.2.2.2.2
  obtain ⟨opens, enough, left⟩ := headerByte_of_accepted mallocs consistent accepted (fits accepted)
  have accepts : (headerByte args byte s).2 = true := by rw [opens]
  have ready := (headerByte_ready consistent noFault accepts).1
  have step := progress_of_copied noFault accepts ready (by rw [opens, left]; omega)
  rw [opens, if_neg (by rw [left]; omega)] at step
  rw [splitByte_of_moved step]
  simp only [Splitter.copied, List.length_set]
  exact enough

/-- In every run whose accepted BodyLengths fit 32 bits, no copy leaves the
block of the delta entry, and every accepted BodyLength gets a block for its
whole message. -/
theorem splitter_heap_safe (args : SplitterArgs)
    (mallocs : ∀ count, args.mallocSucceeds count = true)
    (lastReceived : UInt64) (entries : List FoxtrotEntry)
    (fits : ∀ before byte after,
      streamOf entries = before ++ byte :: after →
        BodyLengthFits args
          (splitBytes args (.initial lastReceived) before).1 byte) :
    (splitEntries args (.initial lastReceived) entries).1.fault ≠
        some .deltaWrite ∧
      ∀ before byte after, streamOf entries = before ++ byte :: after →
        bodyLengthAccepted args
            (splitBytes args (.initial lastReceived) before).1 byte = true →
          unwrappedSize args
              (splitBytes args (.initial lastReceived) before).1 ≤
            (splitBytes args (.initial lastReceived)
              (before ++ [byte])).1.delta.data.length := by
  have start := sound_initial args lastReceived
  have settled : (Splitter.initial lastReceived).settled =
      .initial lastReceived := rfl
  constructor
  · have safe : (splitBytes args (.initial lastReceived)
        (streamOf entries)).1.fault ≠ some .deltaWrite := by
      have both : Unwritten args _ :=
        MealyMachine.run_invariant_guarded
          (fun _ byte unwritten fits => unwritten.splitByte mallocs fits)
          ⟨start, by simp [Splitter.initial]⟩ fits
      exact both.noWrite
    rw [← settled, ← splitEntries_refines start] at safe
    simpa using safe
  · intro before byte after splits accepted
    have sound := splitBytes_sound start before
    have noFault := (of_decide_eq_true accepted).1
    have next : (splitBytes args (.initial lastReceived)
        (before ++ [byte])).1 = (splitByte args
          (splitBytes args (.initial lastReceived) before).1 byte).1 :=
      MealyMachine.run_concat_state _ before byte
    rw [next]
    exact splitByte_allocates mallocs (sound noFault) accepted
      (fits before byte after splits)

theorem bodyLengthFits_rejected : ∀ before byte after,
    streamOf [rejectedEntry] = before ++ byte :: after →
      BodyLengthFits fix41Args (splitBytes fix41Args (.initial 0) before).1 byte := by
  apply MealyMachine.forall_split
  decide +kernel

theorem splitter_heap_safe_rejected :
    (splitEntries fix41Args (.initial 0) [rejectedEntry]).1.fault ≠
      some .deltaWrite :=
  (splitter_heap_safe fix41Args (fun _ => rfl) 0 [rejectedEntry]
    bodyLengthFits_rejected).1

/-- BodyLength 4294967287: the size of the message wraps to 21 bytes, one less
than the header takes. -/
def wrappingEntry : FoxtrotEntry where
  data := fix41Args.beginString ++ ascii ['4', '2', '9', '4', '9', '6', '7', '2', '8', '7'] ++ [1]
  fits := by decide

theorem splitter_heap_overrun :
    (∀ count, fix41Args.mallocSucceeds count = true) ∧
      (splitEntries fix41Args (.initial 0) [wrappingEntry]).1.fault =
        some .deltaWrite := by
  refine ⟨fun _ => rfl, ?_⟩
  decide +kernel

end MercuryFix
