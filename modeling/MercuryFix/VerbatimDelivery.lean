import MercuryFix.BeginStringSearch

/-!
# Delivered bytes and received bytes

The splitter puts a message together from the begin string it was started with,
the digits it kept and the bytes it copied.  Between any two bytes it holds the end
of what it has read, unless a digit is taken for a BodyLength behind more than the
begin string.  `get_sequence_number` then writes a delimiter over the byte behind
the number.
-/

namespace MercuryFix

open DecimalText ByteBlock RestartMatching

variable {args : SplitterArgs} {s : Splitter} {byte : UInt8} {read : List UInt8}

section SequenceNumber

/-- What follows the digits of the first MsgSeqNum is a delimiter, where it is
inside the message. -/
def NumberClosed (soh : UInt8) (bytes : List UInt8) : Prop :=
  ∀ position ∈ memmem (seqnumTag soh) bytes,
    ∀ byte ∈ ((bytes.drop (position + 4)).dropWhile fun byte =>
      soh != byte && isDigit byte).head?, byte = soh

theorem take_getSequenceNumber {soh : UInt8} {len : Nat} {msg : List UInt8}
    {number : SequenceNumberRead} (reads : getSequenceNumber soh len msg = some number)
    (closed : NumberClosed soh (msg.take len)) :
    number.msg.take len = msg.take len := by
  unfold getSequenceNumber at reads
  split at reads
  · cases reads
    rfl
  · rename_i position found
    dsimp only at reads
    split at reads
    · rename_i inside
      cases reads
      dsimp only
      set digit : UInt8 → Bool := fun byte => soh != byte && isDigit byte
      set digits := (msg.drop (position + 4)).takeWhile digit with digitsEq
      rcases Nat.lt_or_ge (position + 4 + digits.length) len with early | late
      · have parts : msg.drop (position + 4) =
            digits ++ (msg.drop (position + 4)).dropWhile digit :=
          List.takeWhile_append_dropWhile.symm
        have areDigits : ∀ byte ∈ digits, digit byte = true := by
          intro byte member
          exact List.mem_takeWhile_imp (p := digit) member
        cases behind : (msg.drop (position + 4)).dropWhile digit with
        | nil =>
          have width := congrArg List.length parts
          rw [behind, List.append_nil, List.length_drop] at width
          omega
        | cons next rest =>
          rw [behind] at parts
          have stops : ¬ digit next = true := by
            have first := List.head_dropWhile_not digit (by rw [behind]; simp)
            simpa [behind] using first
          have isDelimiter : next = soh := by
            apply closed position found
            rw [List.drop_take, parts, List.take_append, List.take_of_length_le (by omega),
              List.dropWhile_append_of_pos areDigits]
            obtain ⟨more, moreEq⟩ : ∃ more, len - (position + 4) - digits.length = more + 1 :=
              ⟨len - (position + 4) - digits.length - 1, by omega⟩
            rw [moreEq, List.take_succ_cons, List.dropWhile_cons_of_neg stops]
            rfl
          have there : msg[position + 4 + digits.length]? = some soh := by
            rw [← List.getElem?_drop, parts, isDelimiter,
              List.getElem?_append_right le_rfl, Nat.sub_self]
            rfl
          rw [List.getElem?_eq_getElem inside, Option.some.injEq] at there
          rw [← there, List.set_getElem_self]
      · exact List.take_set_of_le late
    · cases reads

end SequenceNumber

section Assembly

/-- The splitter holds the end of what it has read. -/
structure Tracks (args : SplitterArgs) (read : List UInt8) (s : Splitter) :
    Prop where
  matching : s.state = .findingBeginString →
    s.l ≤ args.beginString.length → args.beginString.take s.l <:+ read
  counting : s.state = .findingBodyLength → args.beginString ++ s.lengthStr.take s.l <:+ read
  copying : s.state = .copyingBody → s.l = 0 ∧ s.delta.data.take s.offset <:+ read

theorem tracks_restart (searching : s.state = .findingBeginString)
    (atStart : s.l = 0) (read : List UInt8) : Tracks args read s where
  matching := by
    intro _ _
    rw [atStart]
    simp
  counting := by intro impossible; rw [searching] at impossible; cases impossible
  copying := by intro impossible; rw [searching] at impossible; cases impossible

theorem Tracks.settled (tracks : Tracks args read s) : Tracks args read s.settled := by
  by_cases phase : s.state = .copyingBody
  · rwa [Splitter.settled_of_copying phase]
  · rw [Splitter.settled, if_neg phase]
    exact ⟨tracks.matching, tracks.counting, fun copying => absurd copying phase⟩

theorem concat_suffix {held : List UInt8} (ends : held <:+ read) :
    held ++ [byte] <:+ read ++ [byte] := by
  obtain ⟨front, rfl⟩ := ends
  exact ⟨front, (List.append_assoc _ _ _).symm⟩

theorem acceptBodyLength_cases (args : SplitterArgs) (bodyLength : Nat)
    (text : List UInt8) (s : Splitter) :
    let next := acceptBodyLength args bodyLength text s
    next.1.l = s.l ∧ next.1.lengthStr = s.lengthStr ∧
      (next.2 = true ∨ next.1.fault ≠ none ∨ next.1.state = .findingBeginString) := by
  have header : ∀ t : Splitter, t.l = s.l → t.lengthStr = s.lengthStr →
      (writeHeader args text t).1.l = s.l ∧ (writeHeader args text t).1.lengthStr = s.lengthStr ∧
        ((writeHeader args text t).2 = true ∨ (writeHeader args text t).1.fault ≠ none ∨
          (writeHeader args text t).1.state = .findingBeginString) := by
    intro t index digits
    unfold writeHeader
    dsimp only
    split
    · exact ⟨index, digits, Or.inr (Or.inl (by simp))⟩
    · exact ⟨index, digits, Or.inl rfl⟩
  intro next
  have nextEq : next = acceptBodyLength args bodyLength text s := rfl
  unfold acceptBodyLength at nextEq
  dsimp only at nextEq
  split_ifs at nextEq with grows succeeds
  · rw [nextEq]
    exact header _ rfl rfl
  · rw [nextEq]
    exact ⟨rfl, rfl, Or.inr (Or.inr rfl)⟩
  · rw [nextEq]
    exact header _ rfl rfl

theorem findingBodyLength_delimiter_tracks (consistent : Consistent args s)
    (noFault : s.fault = none) (finding : s.state = .findingBodyLength)
    (ends : args.beginString ++ s.lengthStr.take s.l <:+ read) :
    let next := findingBodyLength args args.soh s
    (next.2 = true → next.1.l = 0 ∧ next.1.delta.data.take next.1.offset <:+ read) ∧
      (next.2 = false → next.1.fault = none → Tracks args (read ++ [args.soh]) next.1) := by
  intro next
  have nextEq : next = findingBodyLength args args.soh s := rfl
  obtain ⟨atMost, digits⟩ := consistent.finding finding
  have room := consistent.lengthStr
  by_cases atEnd : s.l = 21
  · rw [nextEq, findingBodyLength, if_pos atEnd]
    exact ⟨by simp, fun _ _ => tracks_restart rfl rfl _⟩
  have textEq : cString (s.lengthStr.set s.l 0) = s.lengthStr.take s.l :=
    cString_set_nul (by omega) digits.digits
  obtain ⟨-, -, sound⟩ := findingBodyLength_sound consistent noFault finding args.soh
  rw [← nextEq] at sound
  rw [findingBodyLength_delimiter (by omega) room digits.digits] at nextEq
  split at nextEq
  · rw [nextEq]
    exact ⟨by simp, fun _ _ => tracks_restart rfl rfl _⟩
  · obtain ⟨index, lengthStr, result⟩ := acceptBodyLength_cases args
      ((atoll (s.lengthStr.take s.l)).1 % 2 ^ 32) (s.lengthStr.take s.l)
      { s with
        lengthStr := s.lengthStr.set s.l 0
        l := 0
        erange := s.erange || (atoll (s.lengthStr.take s.l)).2 }
    rw [← nextEq] at index lengthStr result
    constructor
    · intro accepts
      rcases sound with ⟨-, -, -, -, -, accepted⟩ | ⟨refused, -⟩
      · refine ⟨index, ?_⟩
        have text : cString next.1.lengthStr = s.lengthStr.take s.l := by
          rw [lengthStr]
          exact textEq
        rw [accepted.atDelimiter, accepted.header, text]
        exact ends
      · rw [accepts] at refused
        cases refused
    · intro refused runs
      have searching : next.1.state = .findingBeginString := by
        rcases result with accepts | fault | searching
        · rw [accepts] at refused
          cases refused
        · exact absurd runs fault
        · exact searching
      exact tracks_restart searching index _

theorem findingBodyLength_tracks (consistent : Consistent args s)
    (noFault : s.fault = none) (finding : s.state = .findingBodyLength)
    (ends : args.beginString ++ s.lengthStr.take s.l <:+ read) (byte : UInt8) :
    let next := findingBodyLength args byte s
    (next.2 = true → next.1.l = 0 ∧ next.1.delta.data.take next.1.offset <:+ read) ∧
      (next.2 = false → next.1.fault = none → Tracks args (read ++ [byte]) next.1) := by
  intro next
  have nextEq : next = findingBodyLength args byte s := rfl
  have room := consistent.lengthStr
  obtain ⟨atMost, -⟩ := consistent.finding finding
  by_cases delimiter : args.soh = byte
  · subst delimiter
    exact findingBodyLength_delimiter_tracks consistent noFault finding ends
  · rw [findingBodyLength_of_ne delimiter] at nextEq
    rw [nextEq]
    split_ifs with atEnd digit
    · exact ⟨by simp, fun _ _ => tracks_restart rfl rfl _⟩
    · refine ⟨by simp, fun _ _ => ⟨?_, ?_, ?_⟩⟩
      · intro impossible
        rw [show s.state = _ from impossible] at finding
        cases finding
      · intro _
        change args.beginString ++ (s.lengthStr.set s.l byte).take (s.l + 1) <:+ _
        rw [take_set_succ byte (by omega), ← List.append_assoc]
        exact concat_suffix ends
      · intro impossible
        rw [show s.state = _ from impossible] at finding
        cases finding
    · exact ⟨by simp, fun _ _ => tracks_restart rfl rfl _⟩

/-- The BodyLength starts directly behind the begin string. -/
def EntersBehindBeginString (args : SplitterArgs) (s : Splitter) (byte : UInt8) :
    Prop :=
  Enters args s byte → s.l = args.beginString.length

theorem headerByte_tracks (consistent : Consistent args s)
    (noFault : s.fault = none) (tracks : Tracks args read s)
    (entry : EntersBehindBeginString args s byte) :
    let next := headerByte args byte s
    (next.2 = true → next.1.l = 0 ∧ next.1.delta.data.take next.1.offset <:+ read) ∧
      (next.2 = false → next.1.fault = none → Tracks args (read ++ [byte]) next.1) := by
  cases phase : s.state with
  | copyingBody =>
    rw [headerByte_of_copying phase]
    exact ⟨fun _ => tracks.copying phase, by simp⟩
  | findingBodyLength =>
    rw [headerByte_of_bodyLength phase]
    exact findingBodyLength_tracks consistent noFault phase (tracks.counting phase) byte
  | findingBeginString =>
    rw [headerByte_of_beginString phase]
    rcases findingBeginString_cases args byte s with falls | ⟨l, searches⟩
    · rw [falls, if_pos rfl]
      have whole : s.l = args.beginString.length := entry ⟨phase, by rw [falls]⟩
      have ends := tracks.matching phase whole.le
      rw [whole, List.take_length] at ends
      exact findingBodyLength_tracks consistent.enter noFault rfl (by simpa using ends) byte
    · have next : _ → _ <:+ read ++ [byte] := take_index_suffix (tracks.matching phase)
      rw [searches] at next ⊢
      refine ⟨by simp, fun _ _ => ⟨fun _ => next, ?_, ?_⟩⟩
      · intro impossible
        rw [show s.state = _ from impossible] at phase
        cases phase
      · intro impossible
        rw [show s.state = _ from impossible] at phase
        cases phase

/-- The bytes of a complete message are the last ones read, but for the delimiter
that completed a BodyLength whose count wrapped. -/
theorem progress_tracks (consistent : Consistent args s)
    (noFault : s.fault = none) (tracks : Tracks args read s)
    (entry : EntersBehindBeginString args s byte) :
    (∀ next, progress args s byte = .moved next → next.fault = none →
        Tracks args (read ++ [byte]) next) ∧
      ∀ message consumed, progress args s byte = .found message consumed →
        message.l = 0 ∧ message.delta.data.take message.delta.size <:+: read ++ [byte] := by
  obtain ⟨held, moved⟩ := headerByte_tracks consistent noFault tracks entry
  cases accepts : (headerByte args byte s).2 with
  | false =>
    rw [progress_of_refused noFault accepts]
    refine ⟨?_, by simp⟩
    rintro next ⟨⟩ runs
    rw [Splitter.settled_fault] at runs
    exact (moved accepts runs).settled
  | true =>
    obtain ⟨atStart, ends⟩ := held accepts
    obtain ⟨ready, -⟩ := headerByte_ready consistent noFault accepts
    have covered := ready.covered
    have room := ready.room
    rcases Nat.eq_zero_or_pos (headerByte args byte s).1.bytesLeftToCopy with wrapped | left
    · rw [progress_of_wrapped noFault accepts wrapped]
      refine ⟨by simp, ?_⟩
      rintro message consumed ⟨⟩
      rw [wrapped, Nat.add_zero] at covered
      rw [← covered]
      exact ⟨atStart, ends.isInfix.trans (List.prefix_append _ _).isInfix⟩
    · have extended : ((headerByte args byte s).1.copied byte).delta.data.take
          ((headerByte args byte s).1.offset + 1) <:+ read ++ [byte] := by
        rw [Splitter.copied, List.take_add_one, List.take_set_of_le le_rfl,
          List.getElem?_set_self (by omega)]
        exact concat_suffix ends
      rw [progress_of_copied noFault accepts ready left]
      split
      · rename_i last
        refine ⟨by simp, ?_⟩
        rintro message consumed ⟨⟩
        refine ⟨atStart, ?_⟩
        rw [last] at covered
        change ((headerByte args byte s).1.copied byte).delta.data.take
          (headerByte args byte s).1.delta.size <:+: _
        rw [← covered]
        exact extended.isInfix
      · refine ⟨?_, by simp⟩
        rintro next ⟨⟩ -
        have copying := ready.atCopying
        refine ⟨?_, ?_, fun _ => ⟨atStart, extended⟩⟩
        · intro impossible
          rw [show (headerByte args byte s).1.state = _ from impossible] at copying
          cases copying
        · intro impossible
          rw [show (headerByte args byte s).1.state = _ from impossible] at copying
          cases copying

theorem handled_l (runs : (handled args s).fault = none) : (handled args s).l = s.l := by
  have outcome := messageComplete_outcome args s
  unfold handled at runs ⊢
  generalize messageComplete args s = done at outcome runs
  have counted : ∀ number expected, ((s.numbered number).counted expected).restarted.l = s.l :=
    fun _ _ => rfl
  cases outcome with
  | faulted next fault raised read =>
    rw [show next.fault = none from runs] at raised
    cases raised
  | badChecksum differs => rfl
  | outOfSequence read verified other => rfl
  | emptyType read first inSequence empty => exact counted _ _
  | delta read first type inSequence nonempty typed application => rfl
  | oversized read first type inSequence nonempty typed session large =>
    exact counted _ _
  | echo read first type inSequence nonempty typed session fits =>
    exact counted _ _

theorem splitByte_tracks (sound : Sound args s) (noFault : s.fault = none)
    (tracks : Tracks args read s) (entry : EntersBehindBeginString args s byte)
    (runs : (splitByte args s byte).1.fault = none) :
    Tracks args (read ++ [byte]) (splitByte args s byte).1 := by
  have consistent := sound noFault
  obtain ⟨moves, finds⟩ := progress_tracks consistent noFault tracks entry
  cases step : progress args s byte with
  | moved next =>
    rw [splitByte_of_moved step] at runs ⊢
    exact moves next step runs
  | found message consumed =>
    obtain ⟨atStart, -⟩ := finds message consumed step
    have handledRuns := handled_runs step runs
    have restarted : (handled args message).l = 0 := (handled_l handledRuns).trans atStart
    have searching := handled_state args message
    rw [splitByte_of_found step] at runs ⊢
    dsimp only at runs ⊢
    split at runs
    · rename_i done
      rw [if_pos done]
      exact (tracks_restart searching restarted _).settled
    · rename_i again
      rw [if_neg again]
      have handledSound := handled_sound
        (progress_found consistent noFault step).1.restarted handledRuns
      have entry : EntersBehindBeginString args (handled args message) byte := by
        intro enters
        exact ((enters_iff searching (by omega)).mp enters).1
      have refused := (headerByte_searching handledSound handledRuns searching byte).1
      rw [Splitter.settled_fault] at runs
      exact ((headerByte_tracks handledSound handledRuns
        (tracks_restart searching restarted read) entry).2 refused runs).settled

end Assembly

section Delivery

inductive Passes (data : List UInt8) : Effect → Prop
  | stored (seqnum len : Nat) : Passes data (.storeRecvMsg seqnum len data)
  | delta (size offset : Nat) : Passes data (.deltaCommit size offset data)
  | echo (size offset : Nat) : Passes data (.echoCommit size offset data)

theorem verified_of_passes {data : List UInt8} {effect : Effect}
    (passes : Passes data effect) (emitted : effect ∈ messageEffects args s) :
    ∃ number, Verified args s number ∧ data = number.msg.take s.delta.size := by
  have outcome := messageComplete_outcome args s
  unfold messageEffects at emitted
  generalize messageComplete args s = done at outcome emitted
  cases outcome with
  | faulted next fault raised read => cases emitted
  | badChecksum differs => cases emitted
  | outOfSequence number verified other =>
    rw [List.mem_singleton] at emitted
    subst emitted
    cases passes
  | emptyType number first inSequence empty =>
    rw [List.mem_singleton] at emitted
    subst emitted
    cases passes
  | delta number first type inSequence nonempty typed application =>
    refine ⟨number, inSequence.toVerified, ?_⟩
    rcases List.mem_pair.mp emitted with rfl | rfl <;> cases passes <;> rfl
  | oversized number first type inSequence nonempty typed session large =>
    cases emitted
  | echo number first type inSequence nonempty typed session fits =>
    refine ⟨number, inSequence.toVerified, ?_⟩
    rcases List.mem_pair.mp emitted with rfl | rfl <;> cases passes <;> rfl

def Progress.complete : Progress → Option Splitter
  | .moved _ => none
  | .found message _ => some message

/-- The byte starts a BodyLength only behind the begin string, and the MsgSeqNum of
a message that it completes is closed by a delimiter. -/
def KeepsBytes (args : SplitterArgs) (s : Splitter) (byte : UInt8) : Prop :=
  EntersBehindBeginString args s byte ∧
    ∀ message ∈ (progress args s byte).complete,
      NumberClosed args.soh (message.delta.data.take message.delta.size)

theorem tracks_initial (lastReceived : UInt64) : Tracks args [] (.initial lastReceived) :=
  tracks_restart rfl rfl []

theorem splitBytes_tracks {lastReceived : UInt64}
    (keeps : ∀ before byte after, read = before ++ byte :: after →
      KeepsBytes args (splitBytes args (.initial lastReceived) before).1 byte)
    (runs : (splitBytes args (.initial lastReceived) read).1.fault = none) :
    Tracks args read (splitBytes args (.initial lastReceived) read).1 := by
  induction read using List.reverseRecOn with
  | nil => exact tracks_initial lastReceived
  | append_singleton read byte induction =>
    rw [splitBytes_concat_state] at runs ⊢
    have noFault := noFault_of_splitByte runs
    have sound : Sound args (splitBytes args (.initial lastReceived) read).1 :=
      splitBytes_sound (sound_initial args lastReceived) read
    have tracks := induction (fun before other after splits => keeps before other (after ++ [byte])
        (by rw [splits, List.append_assoc, List.cons_append])) noFault
    exact splitByte_tracks sound noFault tracks (keeps read byte [] rfl).1 runs

/-- Over a stream all of whose bytes keep to the condition, however it is cut into
entries, what is stored and committed are runs of received bytes. -/
theorem delivered_verbatim (args : SplitterArgs) (lastReceived : UInt64)
    (entries : List FoxtrotEntry)
    (keeps : ∀ before byte after, streamOf entries = before ++ byte :: after →
      KeepsBytes args (splitBytes args (.initial lastReceived) before).1 byte)
    (effect : Effect)
    (emitted : effect ∈ (splitEntries args (.initial lastReceived) entries).2)
    (data : List UInt8) (passes : Passes data effect) :
    data <:+: streamOf entries := by
  rw [splitEntries_effects] at emitted
  obtain ⟨before, byte, after, splits, emits⟩ :=
    MealyMachine.exists_step_of_mem_run emitted
  change effect ∈ (splitByte args
    (splitBytes args (.initial lastReceived) before).1 byte).2 at emits
  obtain ⟨message, consumed, found, delivered⟩ := found_of_effect emits
  have noFault := noFault_of_found found
  have consistent : Consistent args
      (splitBytes args (.initial lastReceived) before).1 :=
    splitBytes_sound (sound_initial args lastReceived) before noFault
  obtain ⟨entry, closed⟩ := keeps before byte after splits
  have tracks := splitBytes_tracks
    (fun earlier other later equal => keeps earlier other (later ++ byte :: after)
      (by rw [splits, equal, List.append_assoc, List.cons_append])) noFault
  obtain ⟨-, received⟩ := (progress_tracks consistent noFault tracks entry).2
    message consumed found
  obtain ⟨number, verified, rfl⟩ := verified_of_passes passes delivered
  have numberClosed := closed message (by rw [found]; rfl)
  rw [take_getSequenceNumber verified.reads numberClosed, splits,
    ← List.singleton_append, ← List.append_assoc]
  exact received.trans (List.prefix_append _ _).isInfix

instance (soh : UInt8) (bytes : List UInt8) :
    Decidable (NumberClosed soh bytes) :=
  inferInstanceAs (Decidable (∀ _ ∈ _, _))

instance (args : SplitterArgs) (s : Splitter) (byte : UInt8) :
    Decidable (KeepsBytes args s byte) :=
  inferInstanceAs (Decidable ((Enters args s byte → _) ∧ ∀ _ ∈ _, _))

theorem delivered_verbatim_order :
    Effect.deltaCommit 32 18 orderEntry.data ∈
        (splitEntries fix41Args (.initial 0) [orderEntry]).2 ∧
      orderEntry.data <:+: streamOf [orderEntry] := by
  have emitted : Effect.deltaCommit 32 18 orderEntry.data ∈
      (splitEntries fix41Args (.initial 0) [orderEntry]).2 := by
    decide +kernel
  exact ⟨emitted, delivered_verbatim fix41Args 0 [orderEntry]
    (MealyMachine.forall_split (by decide +kernel)) _ emitted _
    (.delta 32 18)⟩

def letterMessage : FixMessage 1 where
  digits := ascii ['1', '1']
  msgType := ascii ['D']
  fields := ascii ['3', '4', '=', '1', 'x'] ++ [1]
  areDigits := by decide +kernel
  closed := by decide
  typed := order_typed
  delimited := order_delimited
  ends := by decide
  counts := by decide

def letterEntry : FoxtrotEntry where
  data := letterMessage.bytes fix41Args.beginString
  fits := by decide +kernel

def nulEntry : FoxtrotEntry where
  data := fix41Args.beginString ++ 0 ::
    (orderMessage.bytes fix41Args.beginString).drop fix41Args.beginString.length
  fits := by decide +kernel

/-- Orders are committed with bytes that were not received next to each other:
with a delimiter for the letter, and without the NUL. -/
theorem delivery_changes_bytes :
    (∃ effect ∈ (splitEntries fix41Args (.initial 0) [letterEntry]).2,
      ∃ data, Passes data effect ∧ ¬ data <:+: streamOf [letterEntry]) ∧
    ∃ effect ∈ (splitEntries fix41Args (.initial 0) [nulEntry]).2,
      ∃ data, Passes data effect ∧ ¬ data <:+: streamOf [nulEntry] := by
  constructor
  · refine ⟨.deltaCommit 33 18 (letterEntry.data.set 24 1), by decide +kernel, _,
      .delta 33 18, by decide +kernel⟩
  · refine ⟨.deltaCommit 32 18 orderEntry.data, by decide +kernel, _,
      .delta 32 18, by decide +kernel⟩

end Delivery

end MercuryFix
