import MercuryFix.SplitterAssembly

/-!
# What earlier input can do to a later message

`atoll` and `strtoull` set `errno` to `ERANGE` on overflow, nothing clears it,
and the check of a BodyLength reads it.  One overflow in the past therefore
makes the splitter refuse every message that follows.
-/

namespace MercuryFix

open DecimalText ByteBlock

variable {args : SplitterArgs} {s : Splitter}

section Errno

/-- A verified message whose MsgSeqNum does not fit 64 bits. -/
def NumberOverflows (args : SplitterArgs) (message : Splitter) : Prop :=
  ChecksumMatches message.delta ∧ ∃ read,
    getSequenceNumber args.soh message.delta.size message.delta.data =
      some read ∧ read.erange = true

/-- The byte closes a BodyLength above `LLONG_MAX` or completes a verified
message with a MsgSeqNum above `ULLONG_MAX`. -/
def Overflows (args : SplitterArgs) (s : Splitter) (byte : UInt8) : Prop :=
  bodyLengthOverflows args s byte = true ∨
    ∃ message consumed, progress args s byte = .found message consumed ∧
      NumberOverflows args message

/-- Some byte of the stream overflows at the state the splitter is in then. -/
def OverflowsIn (args : SplitterArgs) (s : Splitter) (stream : List UInt8) :
    Prop :=
  ∃ before byte after, stream = before ++ byte :: after ∧
    Overflows args (splitBytes args s before).1 byte

theorem Verified.numberOverflows_iff {read : SequenceNumberRead} (verified : Verified args s read) :
    NumberOverflows args s ↔ read.erange = true := by
  constructor
  · rintro ⟨_, other, reads, overflow⟩
    rw [verified.reads, Option.some.injEq] at reads
    rw [reads]
    exact overflow
  · intro overflow
    exact ⟨verified.checksum, read, verified.reads, overflow⟩

theorem handled_erange (runs : (handled args s).fault = none) :
    (handled args s).erange = true ↔ s.erange = true ∨ NumberOverflows args s := by
  have outcome := messageComplete_outcome args s
  unfold handled at runs ⊢
  generalize messageComplete args s = done at outcome runs
  have numbered : ∀ {read : SequenceNumberRead}, Verified args s read →
      ((s.erange || read.erange) = true ↔ s.erange = true ∨ NumberOverflows args s) := by
    intro read verified
    rw [Bool.or_eq_true, verified.numberOverflows_iff]
  cases outcome with
  | faulted next fault raised read =>
    rw [show next.fault = none from runs] at raised
    cases raised
  | badChecksum differs =>
    have quiet : ¬ NumberOverflows args s := fun overflow =>
      differs overflow.1
    simp only [quiet, or_false]
    rfl
  | outOfSequence read verified other => exact numbered verified
  | emptyType read first inSequence empty =>
    exact numbered inSequence.toVerified
  | delta read first type inSequence nonempty typed application =>
    exact numbered inSequence.toVerified
  | oversized read first type inSequence nonempty typed session large =>
    exact numbered inSequence.toVerified
  | echo read first type inSequence nonempty typed session fits =>
    exact numbered inSequence.toVerified

theorem noFault_of_splitByte {byte : UInt8}
    (runs : (splitByte args s byte).1.fault = none) : s.fault = none := by
  by_contra fault
  rw [splitByte_of_fault fault] at runs
  exact fault runs

theorem splitByte_erange (sound : Sound args s) {byte : UInt8}
    (runs : (splitByte args s byte).1.fault = none) :
    (splitByte args s byte).1.erange = true ↔ s.erange = true ∨ Overflows args s byte := by
  have noFault := noFault_of_splitByte runs
  have consistent := sound noFault
  unfold Overflows
  cases step : progress args s byte with
  | moved next =>
    obtain ⟨_, _, erange⟩ := progress_moved consistent noFault step
    rw [splitByte_of_moved step, erange, Bool.or_eq_true]
    simp
  | found message consumed =>
    obtain ⟨assembled, _, erange, noOverflow⟩ := progress_found consistent noFault step
    rw [(splitByte_kept assembled step).2,
      handled_erange (handled_runs step runs), erange, noOverflow]
    simp

theorem overflowsIn_cons {byte : UInt8} {rest : List UInt8} :
    OverflowsIn args s (byte :: rest) ↔ Overflows args s byte ∨
      OverflowsIn args (splitByte args s byte).1 rest := by
  constructor
  · rintro ⟨before, next, after, splits, overflows⟩
    cases before with
    | nil =>
      cases splits
      exact Or.inl overflows
    | cons first before =>
      cases splits
      exact Or.inr ⟨before, next, after, rfl, overflows⟩
  · rintro (now | ⟨before, next, after, splits, overflows⟩)
    · exact ⟨[], byte, rest, rfl, now⟩
    · exact ⟨byte :: before, next, after, by rw [splits]; rfl, overflows⟩

theorem splitBytes_erange (sound : Sound args s) {stream : List UInt8}
    (runs : (splitBytes args s stream).1.fault = none) :
    (splitBytes args s stream).1.erange = true ↔ s.erange = true ∨ OverflowsIn args s stream := by
  induction stream generalizing s with
  | nil => simp [OverflowsIn, splitBytes]
  | cons byte rest induction =>
    rw [splitBytes_cons] at runs ⊢
    have first : (splitByte args s byte).1.fault = none := by
      by_contra fault
      rw [splitBytes_of_fault fault] at runs
      exact fault runs
    rw [induction (splitByte_sound sound byte) runs,
      splitByte_erange sound first, overflowsIn_cons, or_assoc]

end Errno

section Deaf

structure Deaf (args : SplitterArgs) (s : Splitter) : Prop where
  sound : Sound args s
  outside : s.state ≠ .copyingBody
  overflowed : s.erange = true

theorem Deaf.splitByte (deaf : Deaf args s) (byte : UInt8) :
    Deaf args (splitByte args s byte).1 ∧ (splitByte args s byte).2 = [] := by
  by_cases noFault : s.fault = none
  · obtain ⟨_, erange, result⟩ := headerByte_sound (deaf.sound noFault) noFault deaf.outside byte
    rw [deaf.overflowed, Bool.true_or] at erange
    rcases result with ⟨_, _, _, clear, _⟩ | ⟨refused, outside, sound⟩
    · rw [erange] at clear
      cases clear
    · rw [splitByte_of_moved (progress_of_refused noFault refused)]
      refine ⟨⟨sound.settled, ?_, ?_⟩, rfl⟩
      · rwa [Splitter.settled_state]
      · rwa [Splitter.settled_erange]
  · rw [splitByte_of_fault noFault]
    exact ⟨deaf, rfl⟩

theorem Deaf.splitBytes (deaf : Deaf args s) (stream : List UInt8) :
    (splitBytes args s stream).2 = [] :=
  MealyMachine.run_silent (fun _ byte deaf => deaf.splitByte byte) deaf stream

/-- The search has not got past a position of the begin string. -/
def StuckAt (position : Nat) (s : Splitter) : Prop := s.state = .findingBeginString ∧ s.l ≤ position

/-- A `char` above 127 is negative and equals no `uint8_t`. -/
theorem not_charEqByte {position : Nat} {character : UInt8}
    (here : args.beginString[position]? = some character)
    (negative : 128 ≤ character.toNat) (byte : UInt8) :
    charEqByte (args.beginChar position) byte = false := by
  rw [beginChar_of_inside here, ← Bool.not_eq_true, charEqByte_iff]
  rintro ⟨_, plain⟩
  omega

theorem findingBeginString_stuckAt {position : Nat} {character : UInt8}
    (here : args.beginString[position]? = some character)
    (negative : 128 ≤ character.toNat) (stuck : StuckAt position s)
    (byte : UInt8) :
    (findingBeginString args byte s).2 = false ∧
      StuckAt position (findingBeginString args byte s).1 := by
  obtain ⟨searching, behind⟩ := stuck
  have unequal := not_charEqByte here negative byte
  have inside : position < args.beginString.length := (List.getElem?_eq_some_iff.mp here).1
  have nonzero : args.beginChar s.l ≠ 0 := by
    have present : args.beginString[s.l]? = some args.beginString[s.l] :=
      List.getElem?_eq_getElem (by omega)
    rw [beginChar_of_inside present]
    intro zero
    exact args.terminated (zero ▸ List.getElem_mem _)
  unfold findingBeginString
  split_ifs with matched ended again
  · refine ⟨rfl, searching, ?_⟩
    have before : s.l ≠ position := by
      intro equal
      rw [equal, unequal] at matched
      cases matched
    change s.l + 1 ≤ position
    omega
  · simp [nonzero] at ended
  · refine ⟨rfl, searching, ?_⟩
    have positive : position ≠ 0 := by
      intro zero
      rw [← zero, unequal] at again
      cases again
    change 1 ≤ position
    omega
  · exact ⟨rfl, searching, Nat.zero_le position⟩

theorem splitByte_stuckAt {position : Nat} {character : UInt8}
    (here : args.beginString[position]? = some character)
    (negative : 128 ≤ character.toNat) (stuck : StuckAt position s)
    (byte : UInt8) :
    StuckAt position (splitByte args s byte).1 ∧ (splitByte args s byte).2 = [] := by
  by_cases noFault : s.fault = none
  · obtain ⟨refused, kept⟩ := findingBeginString_stuckAt here negative stuck byte
    have header : headerByte args byte s = ((findingBeginString args byte s).1, false) := by
      rw [headerByte_of_beginString stuck.1, refused, if_neg Bool.false_ne_true]
    rw [splitByte_of_moved (progress_of_refused noFault (by rw [header])), header]
    refine ⟨⟨?_, ?_⟩, rfl⟩
    · rw [Splitter.settled_state]
      exact kept.1
    · rw [Splitter.settled_l]
      exact kept.2
  · rw [splitByte_of_fault noFault]
    exact ⟨stuck, rfl⟩

theorem splitBytes_of_not_plain (searching : s.state = .findingBeginString)
    (atStart : s.l = 0) (notPlain : ¬ args.Plain) (stream : List UInt8) :
    (splitBytes args s stream).2 = [] := by
  unfold SplitterArgs.Plain at notPlain
  push Not at notPlain
  obtain ⟨character, member, negative⟩ := notPlain
  obtain ⟨position, here⟩ := List.mem_iff_getElem?.mp member
  have start : StuckAt position s := by
    refine ⟨searching, ?_⟩
    rw [atStart]
    exact Nat.zero_le position
  apply MealyMachine.run_silent _ start
  intro s byte stuck
  exact splitByte_stuckAt here negative stuck byte

end Deaf

section Recovery

variable {message : FixMessage args.soh} {number : Nat}

def Delivers (bytes : List UInt8) (effects : List Effect) : Prop :=
  ∃ effect ∈ effects, ∃ offset, Commits bytes.length offset bytes effect

/-- The splitter looks for the first byte of a begin string. -/
structure Searching (s : Splitter) : Prop where
  noFault : s.fault = none
  searching : s.state = .findingBeginString
  atStart : s.l = 0

/-- What a splitter on which nothing has overflowed delivers of the well-formed
messages in sequence. -/
def Deliverable (args : SplitterArgs) (message : FixMessage args.soh) (number : Nat) : Prop :=
  args.Plain ∧ message.digits.length ≤ 20 ∧ number ≠ 2 ^ 64 - 1 ∧ ¬ OversizedSession args message

theorem Assembled.short_of_commit {effect : Effect} {offset : Nat} (assembled : Assembled args s)
    (commits : Commits (message.bytes args.beginString).length offset
      (message.bytes args.beginString) effect)
    (emitted : effect ∈ messageEffects args s) :
    message.digits.length ≤ 20 := by
  obtain ⟨read, first, inSequence, _, sizeEq, _, dataEq⟩ := inSequence_of_commit commits emitted
  obtain ⟨position, readEq⟩ := getSequenceNumber_msg inSequence.reads
  have bytesEq : message.bytes args.beginString =
      (args.beginString ++ cString s.lengthStr ++ s.behindDigits args).set position args.soh := by
    rw [dataEq, readEq, List.take_set, assembled.message_eq]
  by_contra long
  have short := assembled.short
  have lengths := congrArg List.length bytesEq
  rw [message.length_bytes, List.length_set, List.length_append, List.length_append] at lengths
  have delimiter := assembled.head?_behindDigits (List.ne_nil_of_length_pos (by omega))
  have inside : args.beginString.length + (cString s.lengthStr).length <
      (args.beginString ++ cString s.lengthStr ++ s.behindDigits args).length := by
    rw [List.length_append, List.length_append]
    omega
  -- The delimiter stands where the message has one more digit.
  have there : (message.bytes args.beginString)[args.beginString.length +
      (cString s.lengthStr).length]? = some args.soh := by
    rw [bytesEq, List.getElem?_set]
    by_cases replaced : position = args.beginString.length + (cString s.lengthStr).length
    · rw [if_pos replaced, if_pos (replaced ▸ inside)]
    · rw [if_neg replaced, ← List.length_append, List.getElem?_append_right (le_refl _),
        Nat.sub_self, ← List.head?_eq_getElem?, delimiter]
  have digit : (message.bytes args.beginString)[args.beginString.length +
      (cString s.lengthStr).length]? = message.digits[(cString s.lengthStr).length]? := by
    rw [FixMessage.bytes, FixMessage.summed, List.append_assoc,
      List.append_assoc, List.getElem?_append_right (by omega),
      Nat.add_sub_cancel_left, List.getElem?_append_left (by omega)]
  rw [digit] at there
  exact message.closed (List.mem_of_getElem? there)

theorem Holding.delivers_iff (holding : Holding args message s)
    (carries : CarriesNumber args.soh (message.bytes args.beginString) number)
    (next : number = s.next) :
    Delivers (message.bytes args.beginString) (messageEffects args s) ↔
      number ≠ 2 ^ 64 - 1 ∧ ¬ OversizedSession args message := by
  refine (holding.fate carries next).delivered_iff ?_ ?_ ?_
  · rintro effects ⟨effect, member, offset, commits⟩
    rw [effects, List.mem_singleton] at member
    subst member
    cases commits
  · rintro effects ⟨effect, member, _⟩
    rw [effects] at member
    cases member
  · intro effects _
    rw [effects, deliveredEffects]
    refine ⟨_, List.mem_cons_of_mem _ List.mem_cons_self,
      args.beginString.length + message.digits.length + 4, ?_⟩
    split
    · exact .echo
    · exact .delta

theorem Searching.delivers_iff (rest : Searching s)
    (consistent : Consistent args s) (mallocs : ∀ count, args.mallocSucceeds count = true)
    (below : value message.digits < 2 ^ 31)
    (carries : CarriesNumber args.soh (message.bytes args.beginString) s.next) :
    Delivers (message.bytes args.beginString)
        (splitBytes args s (message.bytes args.beginString)).2 ↔
      s.erange = false ∧ Deliverable args message s.next := by
  have whole : ∀ (plain : args.Plain) (short : message.digits.length ≤ 20)
      (clear : s.erange = false),
      Delivers (message.bytes args.beginString)
          (splitBytes args s (message.bytes args.beginString)).2 ↔
        s.next ≠ 2 ^ 64 - 1 ∧ ¬ OversizedSession args message := by
    intro plain short clear
    have atRest : AtRest args s := ⟨consistent, rest.noFault, rest.searching, rest.atStart, clear⟩
    have small : (message.bytes args.beginString).length < 2 ^ 32 := by
      have fits := args.fits
      have counts : value message.digits = message.body.length := message.counts
      rw [message.length_bytes]
      omega
    obtain ⟨found, holding, expected, _, _, runs⟩ := atRest.assembles mallocs plain short small
    have next : s.next = found.next := by
      rw [Splitter.next, Splitter.next, expected]
    rw [runs]
    exact holding.delivers_iff carries next
  constructor
  · intro delivers
    obtain ⟨effect, emitted, offset, commits⟩ := delivers
    have clear : s.erange = false := by
      rw [← Bool.not_eq_true]
      intro overflowed
      have deaf : Deaf args s := ⟨fun _ => consistent, by simp [rest.searching], overflowed⟩
      rw [deaf.splitBytes] at emitted
      cases emitted
    have plain : args.Plain := by
      by_contra notPlain
      rw [splitBytes_of_not_plain rest.searching rest.atStart notPlain] at emitted
      cases emitted
    obtain ⟨before, byte, _, _, emits⟩ := MealyMachine.exists_step_of_mem_run emitted
    obtain ⟨found, consumed, finds, foundEmits⟩ := found_of_effect emits
    have sound := splitBytes_sound (fun _ => consistent) before
    have noFault := noFault_of_found finds
    obtain ⟨assembled, _⟩ := progress_found (sound noFault) noFault finds
    have short := assembled.short_of_commit commits foundEmits
    have rest := (whole plain short clear).mp ⟨effect, emitted, offset, commits⟩
    exact ⟨clear, plain, short, rest⟩
  · rintro ⟨clear, plain, short, deliverable⟩
    exact (whole plain short clear).mpr deliverable

theorem Searching.delivers_entries_iff (rest : Searching s)
    (sound : Sound args s) (mallocs : ∀ count, args.mallocSucceeds count = true)
    (below : value message.digits < 2 ^ 31)
    (carries : CarriesNumber args.soh (message.bytes args.beginString) s.next)
    {arrival : List FoxtrotEntry}
    (arrives : streamOf arrival = message.bytes args.beginString) :
    Delivers (message.bytes args.beginString) (splitEntries args s arrival).2 ↔
      s.erange = false ∧ Deliverable args message s.next := by
  have consistent := sound rest.noFault
  have settled : Searching s.settled := by
    refine ⟨?_, ?_, ?_⟩
    · rw [Splitter.settled_fault]
      exact rest.noFault
    · rw [Splitter.settled_state]
      exact rest.searching
    · rw [Splitter.settled_l]
      exact rest.atStart
  have next : s.settled.next = s.next := by
    rw [Splitter.next, Splitter.next, Splitter.settled_expected]
  have effects := congrArg Prod.snd (splitEntries_refines sound arrival)
  dsimp only at effects
  rw [effects, arrives, settled.delivers_iff consistent.settled mallocs below
    (next.symm ▸ carries), next, Splitter.settled_erange]

theorem splitEntries_erange (args : SplitterArgs) (lastReceived : UInt64)
    (entries : List FoxtrotEntry)
    (runs : (splitEntries args (.initial lastReceived) entries).1.fault = none) :
    (splitEntries args (.initial lastReceived) entries).1.erange = true ↔
      OverflowsIn args (.initial lastReceived) (streamOf entries) := by
  have sound := sound_initial args lastReceived
  have refines := congrArg Prod.fst (splitEntries_refines sound entries)
  dsimp only at refines
  change (splitEntries args (.initial lastReceived) entries).1.settled =
    (splitBytes args (.initial lastReceived) (streamOf entries)).1 at refines
  rw [← Splitter.settled_fault, refines] at runs
  rw [← Splitter.settled_erange, refines, splitBytes_erange sound runs]
  simp [Splitter.initial]

/-- After any two streams that leave the splitter searching for a begin string
with the same number, a valid message in sequence meets the same fate after
both exactly when both have overflowed or neither has, or the message is one
that no splitter delivers. -/
theorem delivered_after_iff (args : SplitterArgs) (mallocs : ∀ count,
      args.mallocSucceeds count = true)
    (firstNumber secondNumber : UInt64)
    (first second firstArrival secondArrival : List FoxtrotEntry)
    (afterFirst afterSecond : Splitter)
    (firstRun : afterFirst =
      (splitEntries args (.initial firstNumber) first).1)
    (secondRun : afterSecond =
      (splitEntries args (.initial secondNumber) second).1)
    (firstRest : Searching afterFirst) (secondRest : Searching afterSecond)
    (sameNumber : afterFirst.expected = afterSecond.expected)
    (message : FixMessage args.soh) (below : value message.digits < 2 ^ 31)
    (carries : CarriesNumber args.soh (message.bytes args.beginString)
      afterFirst.next)
    (firstArrives : streamOf firstArrival = message.bytes args.beginString)
    (secondArrives : streamOf secondArrival =
      message.bytes args.beginString) :
    ((Delivers (message.bytes args.beginString)
          (splitEntries args afterFirst firstArrival).2 ↔
        Delivers (message.bytes args.beginString)
          (splitEntries args afterSecond secondArrival).2) ↔
      (OverflowsIn args (.initial firstNumber) (streamOf first) ↔
          OverflowsIn args (.initial secondNumber) (streamOf second)) ∨
        ¬ Deliverable args message afterFirst.next) := by
  subst firstRun secondRun
  have sameNext : (splitEntries args (.initial firstNumber) first).1.next =
      (splitEntries args (.initial secondNumber) second).1.next := by
    rw [Splitter.next, Splitter.next, sameNumber]
  have firstSound := splitEntries_sound (sound_initial args firstNumber) first
  have secondSound :=
    splitEntries_sound (sound_initial args secondNumber) second
  rw [firstRest.delivers_entries_iff firstSound mallocs below carries firstArrives,
      secondRest.delivers_entries_iff secondSound mallocs below (sameNext ▸ carries) secondArrives,
      ← splitEntries_erange args firstNumber first firstRest.noFault,
      ← splitEntries_erange args secondNumber second secondRest.noFault, ← sameNext,
      ← Bool.not_eq_true, ← Bool.not_eq_true]
  tauto

instance (s : Splitter) : Decidable (Searching s) :=
  decidable_of_iff
    (s.fault = none ∧ s.state = .findingBeginString ∧ s.l = 0)
    ⟨fun ⟨noFault, searching, atStart⟩ => ⟨noFault, searching, atStart⟩,
      fun rest => ⟨rest.noFault, rest.searching, rest.atStart⟩⟩

/-- A message with a wrong checksum in front does not matter. -/
theorem delivered_after_iff_rejected :
    Delivers (orderMessage.bytes fix41Args.beginString)
        (splitEntries fix41Args (splitEntries fix41Args (.initial 0)
          [rejectedEntry]).1 [orderEntry]).2 ↔
      Delivers (orderMessage.bytes fix41Args.beginString)
        (splitEntries fix41Args (splitEntries fix41Args (.initial 0) []).1
          [orderEntry]).2 := by
  refine (delivered_after_iff fix41Args (fun _ => rfl) 0 0 [rejectedEntry] []
    [orderEntry] [orderEntry] _ _ rfl rfl (by decide +kernel)
    (by decide +kernel) (by decide +kernel) orderMessage (by decide)
    orderMessage_carries (by decide +kernel) (by decide +kernel)).mpr
      (Or.inl ?_)
  rw [← splitEntries_erange fix41Args 0 [rejectedEntry] (by decide +kernel),
    ← splitEntries_erange fix41Args 0 [] (by decide +kernel)]
  decide +kernel

def overflowEntry : FoxtrotEntry where
  data := fix41Args.beginString ++ List.replicate 20 57 ++ [1]
  fits := by decide

/-- Behind it the splitter searches with the same number and refuses the order
that it delivers otherwise. -/
theorem overflow_refuses_order :
    let overflowed := (splitEntries fix41Args (.initial 0) [overflowEntry]).1
    Searching overflowed ∧ Searching (.initial 0) ∧
      overflowed.expected = (Splitter.initial 0).expected ∧
      value orderMessage.digits < 2 ^ 31 ∧
      CarriesNumber 1 (orderMessage.bytes fix41Args.beginString)
        overflowed.next ∧
      Delivers (orderMessage.bytes fix41Args.beginString)
        (splitEntries fix41Args (.initial 0) [orderEntry]).2 ∧
      (splitEntries fix41Args overflowed [orderEntry]).2 = [] := by
  intro overflowed
  refine ⟨by decide +kernel, by decide +kernel, by decide +kernel,
    by decide, orderMessage_carries,
    ⟨.deltaCommit 32 18 (orderMessage.bytes fix41Args.beginString),
      by decide +kernel, 18, .delta⟩, by decide +kernel⟩

end Recovery

end MercuryFix
