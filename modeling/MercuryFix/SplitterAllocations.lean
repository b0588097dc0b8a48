import MercuryFix.SplitterMemorySafety

/-!
# Allocations of the splitter that fail

`content.size` is both the capacity of the block of a delta entry and the length
of the message in it, and it is set before the result of `malloc` is known.
Behind a failure the entry has no block but a size, and a later message that is
not larger is written through the NULL pointer.
-/

namespace MercuryFix

open DecimalText ByteBlock

variable {args : SplitterArgs} {s : Splitter}

/-- The block of the delta entry has room for as many bytes as its size says. -/
def Roomy (s : Splitter) : Prop := s.fault = none → s.delta.size ≤ s.delta.data.length

/-- If the byte closes a BodyLength that needs a larger block, then there is
memory for it. -/
def Allocated (args : SplitterArgs) (s : Splitter) (byte : UInt8) : Prop :=
  bodyLengthAccepted args s byte = true →
    s.delta.size < unwrappedSize args s → args.mallocSucceeds s.mallocs = true

/-- The same session with memory enough for everything. -/
def SplitterArgs.ample (args : SplitterArgs) : SplitterArgs :=
  { args with mallocSucceeds := fun _ => true }

section Ample

theorem acceptBodyLength_ample {bodyLength : Nat} {text : List UInt8}
    (room : messageSize args bodyLength text ≤ s.delta.size ∨
      args.mallocSucceeds s.mallocs = true) :
    acceptBodyLength args.ample bodyLength text s = acceptBodyLength args bodyLength text s := by
  rw [acceptBodyLength_of_room (Or.inr rfl), acceptBodyLength_of_room room]
  rfl

theorem findingBodyLength_ample_of_refused (consistent : Consistent args s)
    (consistentAmple : Consistent args.ample s) (noFault : s.fault = none)
    (finding : s.state = .findingBodyLength) {byte : UInt8}
    (refused : bodyLengthAccepted args s byte = false) :
    findingBodyLength args.ample byte s = findingBodyLength args byte s := by
  by_cases atEnd : s.l = 21
  · rw [findingBodyLength, if_pos atEnd, findingBodyLength, if_pos atEnd]
  by_cases delimiter : byte = args.soh
  · subst delimiter
    exact (findingBodyLength_unusable consistentAmple noFault finding atEnd
      refused).trans (findingBodyLength_unusable consistent noFault finding atEnd refused).symm
  · have other : args.soh ≠ byte := Ne.symm delimiter
    rw [findingBodyLength_of_ne other,
      findingBodyLength_of_ne (show args.ample.soh ≠ byte from other)]

theorem headerByte_ample (consistent : Consistent args s)
    (consistentAmple : Consistent args.ample s) (noFault : s.fault = none)
    {byte : UInt8} (fits : BodyLengthFits args s byte) (allocated : Allocated args s byte) :
    headerByte args.ample byte s = headerByte args byte s := by
  cases phase : s.state with
  | copyingBody => rw [headerByte_of_copying phase, headerByte_of_copying phase]
  | findingBodyLength =>
    rw [headerByte_of_bodyLength phase, headerByte_of_bodyLength phase]
    cases accepted : bodyLengthAccepted args s byte with
    | false =>
      exact findingBodyLength_ample_of_refused consistent consistentAmple noFault phase accepted
    | true =>
      have size := messageSize_eq_unwrappedSize (fits accepted)
      rw [findingBodyLength_of_accepted consistent accepted,
        findingBodyLength_of_accepted consistentAmple accepted]
      apply acceptBodyLength_ample
      rw [size]
      by_cases grows : s.delta.size < unwrappedSize args s
      · exact Or.inr (allocated accepted grows)
      · exact Or.inl (not_lt.mp grows)
  | findingBeginString =>
    rw [headerByte_of_beginString phase, headerByte_of_beginString phase]
    have same : findingBeginString args.ample byte s = findingBeginString args byte s := rfl
    rw [same]
    rcases findingBeginString_cases args byte s with found | ⟨l, searching⟩
    · rw [found, if_pos rfl, if_pos rfl]
      apply findingBodyLength_ample_of_refused consistent.enter consistentAmple.enter noFault rfl
      simp [bodyLengthAccepted, Splitter.bodyLengthText]
    · rw [searching, if_neg Bool.false_ne_true, if_neg Bool.false_ne_true]

theorem splitByte_ample (sound : Sound args s) (soundAmple : Sound args.ample s)
    {byte : UInt8} (fits : BodyLengthFits args s byte) (allocated : Allocated args s byte) :
    splitByte args.ample s byte = splitByte args s byte := by
  by_cases noFault : s.fault = none
  · have header := headerByte_ample (sound noFault) (soundAmple noFault) noFault fits allocated
    have step : progress args.ample s byte = progress args s byte := by
      simp only [progress, header]
    cases found : progress args s byte with
    | moved next =>
      rw [splitByte_of_moved found, splitByte_of_moved (step.trans found)]
    | found message consumed =>
      have assembled := (progress_found (sound noFault) noFault found).1
      have assembledAmple := (progress_found (soundAmple noFault) noFault (step.trans found)).1
      have same : handled args.ample message = handled args message := rfl
      have effects : messageEffects args.ample message = messageEffects args message := rfl
      rw [splitByte_of_found found, splitByte_of_found (step.trans found), same, effects]
      by_cases stops : (consumed || (handled args message).fault.isSome) = true
      · rw [if_pos stops, if_pos stops]
      · rw [if_neg stops, if_neg stops]
        rw [Bool.or_eq_true, not_or, Option.not_isSome_iff_eq_none] at stops
        -- The byte begins the search anew and closes no BodyLength.
        have refused : bodyLengthAccepted args (handled args message) byte = false :=
          bodyLengthAccepted_of_not_finding (by simp [handled_state]) byte
        have unaccepted : ∀ {conclusion : Prop}, bodyLengthAccepted args
            (handled args message) byte = true → conclusion := by
          intro conclusion accepted
          rw [refused] at accepted
          cases accepted
        rw [headerByte_ample (handled_sound assembled.restarted stops.2)
          (same ▸ handled_sound assembledAmple.restarted stops.2) stops.2 unaccepted unaccepted]
  · rw [splitByte_of_fault noFault, splitByte_of_fault noFault]

theorem splitBytes_ample (sound : Sound args s) (soundAmple : Sound args.ample s)
    {stream : List UInt8}
    (fits : ∀ before byte after, stream = before ++ byte :: after →
      BodyLengthFits args (splitBytes args s before).1 byte)
    (allocated : ∀ before byte after, stream = before ++ byte :: after →
      Allocated args (splitBytes args s before).1 byte) :
    splitBytes args.ample s stream = splitBytes args s stream := by
  have agree : ∀ s byte, Sound args s ∧ Sound args.ample s →
      BodyLengthFits args s byte ∧ Allocated args s byte →
      splitByte args.ample s byte = splitByte args s byte := by
    rintro s byte ⟨sound, soundAmple⟩ ⟨fits, allocated⟩
    exact splitByte_ample sound soundAmple fits allocated
  have preserved : ∀ s byte, Sound args s ∧ Sound args.ample s →
      BodyLengthFits args s byte ∧ Allocated args s byte →
      Sound args (splitByte args s byte).1 ∧ Sound args.ample (splitByte args s byte).1 := by
    intro s byte sounds guarded
    refine ⟨splitByte_sound sounds.1 byte, ?_⟩
    rw [← agree s byte sounds guarded]
    exact splitByte_sound sounds.2 byte
  exact MealyMachine.run_congr_guarded agree preserved ⟨sound, soundAmple⟩
    (fun before byte after splits => ⟨fits before byte after splits,
      allocated before byte after splits⟩)

theorem Unwritten.roomy (unwritten : Unwritten args.ample s) : Roomy s := by
  intro noFault
  rcases (unwritten.sound noFault).room with room | ⟨-, count, fails⟩
  · exact room
  · cases fails

end Ample

section Failure

theorem settled_delta (s : Splitter) : s.settled.delta = s.delta := by
  unfold Splitter.settled
  split <;> rfl

theorem roomy_settled : Roomy s.settled ↔ Roomy s := by
  rw [Roomy, Roomy, Splitter.settled_fault, settled_delta]

theorem splitByte_unallocated (consistent : Consistent args s)
    {byte : UInt8} (accepted : bodyLengthAccepted args s byte = true)
    (fits : BodyLengthFits args s byte) (grows : s.delta.size < unwrappedSize args s)
    (fails : args.mallocSucceeds s.mallocs = false) :
    ¬ Roomy (splitByte args s byte).1 := by
  obtain ⟨noFault, finding, -⟩ := of_decide_eq_true accepted
  have size := messageSize_eq_unwrappedSize (fits accepted)
  have header : headerByte args byte s = _ := (headerByte_of_bodyLength finding byte).trans
      ((findingBodyLength_of_accepted consistent accepted).trans
        (acceptBodyLength_of_mallocFails (size ▸ grows) fails))
  rw [splitByte_of_moved (progress_of_refused noFault (by rw [header])), header]
  intro roomy
  have room := roomy (by rw [Splitter.settled_fault]; exact noFault)
  rw [settled_delta] at room
  have small := fits accepted
  simp only [size, List.length_nil] at room
  omega

end Failure

section Entries

def byteEntry (byte : UInt8) : FoxtrotEntry := ⟨[byte], show 1 ≤ foxtrotMaxDataSize by decide⟩

theorem streamOf_byteEntries (stream : List UInt8) : streamOf (stream.map byteEntry) = stream := by
  induction stream with
  | nil => rfl
  | cons byte stream induction =>
    rw [List.map_cons, streamOf, List.flatMap_cons]
    exact congrArg (byte :: ·) induction

/-- The entry of the splitter keeps room for its size, and nothing is written
outside of a block, if and only if every allocation that a message needs
succeeds. -/
theorem splitter_roomy_iff (args : SplitterArgs) (lastReceived : UInt64) (stream : List UInt8)
    (fits : ∀ before byte after, stream = before ++ byte :: after →
      BodyLengthFits args
        (splitBytes args (.initial lastReceived) before).1 byte) :
    (∀ entries, streamOf entries <+: stream →
      Roomy (splitEntries args (.initial lastReceived) entries).1 ∧
        (splitEntries args (.initial lastReceived) entries).1.fault ≠
          some .deltaWrite) ↔
    ∀ before byte after, stream = before ++ byte :: after →
      Allocated args (splitBytes args (.initial lastReceived) before).1 byte := by
  have start := sound_initial args lastReceived
  have startAmple := sound_initial args.ample lastReceived
  have refines : ∀ entries,
      (splitEntries args (.initial lastReceived) entries).1.settled =
        (splitBytes args (.initial lastReceived) (streamOf entries)).1 := by
    intro entries
    exact congrArg Prod.fst (splitEntries_refines start entries)
  constructor
  · intro roomy before byte after splits accepted grows
    by_contra fails
    have noFault := (of_decide_eq_true accepted).1
    have sound := splitBytes_sound start before
    have next : (splitBytes args (.initial lastReceived)
        (before ++ [byte])).1 = (splitByte args
          (splitBytes args (.initial lastReceived) before).1 byte).1 :=
      MealyMachine.run_concat_state _ before byte
    have reached := roomy ((before ++ [byte]).map byteEntry) (by
      rw [streamOf_byteEntries, splits]
      exact ⟨after, by simp⟩)
    rw [← roomy_settled, refines, streamOf_byteEntries, next] at reached
    exact splitByte_unallocated (sound noFault) accepted
      (fits before byte after splits) grows (by simpa using fails) reached.1
  · intro allocated entries front
    have same : ∀ front, front <+: stream →
        splitBytes args.ample (.initial lastReceived) front =
          splitBytes args (.initial lastReceived) front := by
      rintro front ⟨rest, splits⟩
      have covers : ∀ before byte after, front = before ++ byte :: after →
          stream = before ++ byte :: (after ++ rest) := by
        intro before byte after here
        rw [← splits, here]
        simp
      apply splitBytes_ample start startAmple
      · intro before byte after here
        exact fits _ _ _ (covers before byte after here)
      · intro before byte after here
        exact allocated _ _ _ (covers before byte after here)
    have unwritten : Unwritten args.ample (splitBytes args.ample
        (.initial lastReceived) (streamOf entries)).1 := by
      apply MealyMachine.run_invariant_guarded
        (fun _ byte unwritten fits => unwritten.splitByte (fun _ => rfl) fits)
        ⟨startAmple, by simp [Splitter.initial]⟩
      intro before byte after splits
      obtain ⟨rest, whole⟩ := front
      have here : stream = before ++ byte :: (after ++ rest) := by
        rw [← whole, splits]
        simp
      have reached := same before ⟨_, here.symm⟩
      rw [show MealyMachine.run (splitByte args.ample) (.initial lastReceived) before = _
        from reached]
      exact fits before byte _ here
    rw [same _ front, ← refines] at unwritten
    exact ⟨roomy_settled.mp unwritten.roomy,
      by simpa using unwritten.noWrite⟩

theorem splitter_roomy_rejected :
    streamOf [rejectedEntry] = rejectedMessage ∧
    ∀ entries, streamOf entries <+: streamOf [rejectedEntry] →
      Roomy (splitEntries fix41Args (.initial 0) entries).1 ∧
        (splitEntries fix41Args (.initial 0) entries).1.fault ≠
          some .deltaWrite :=
  ⟨by decide, (splitter_roomy_iff fix41Args 0 (streamOf [rejectedEntry])
    bodyLengthFits_rejected).mpr fun _ _ _ _ _ _ => rfl⟩

def scarceArgs : SplitterArgs := { fix41Args with mallocSucceeds := fun count => count != 0 }

/-- The beginning of a message with the BodyLength 100, and of one with the
BodyLength 50. -/
def skippedEntry : FoxtrotEntry where
  data := scarceArgs.beginString ++ ascii ['1', '0', '0'] ++ [1]
  fits := by decide

def smallerEntry : FoxtrotEntry where
  data := scarceArgs.beginString ++ ascii ['5', '0'] ++ [1]
  fits := by decide

/-- The entry of a message that was skipped for lack of memory has a size of 123
bytes and no block.  The next message is written through the NULL pointer. -/
theorem splitter_unroomy_skipped :
    (∀ before byte after,
      streamOf [skippedEntry, smallerEntry] = before ++ byte :: after →
        BodyLengthFits scarceArgs
          (splitBytes scarceArgs (.initial 0) before).1 byte) ∧
      (splitEntries scarceArgs (.initial 0) [skippedEntry]).1.fault = none ∧
      (splitEntries scarceArgs (.initial 0) [skippedEntry]).1.delta =
        ⟨123, 0, []⟩ ∧
      (splitEntries scarceArgs (.initial 0) [skippedEntry, smallerEntry]).1.fault =
        some .deltaWrite := by
  refine ⟨?_, by decide +kernel⟩
  apply MealyMachine.forall_split
  decide +kernel

end Entries

end MercuryFix
