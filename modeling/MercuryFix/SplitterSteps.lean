import MercuryFix.SplitterMessages

/-!
# Runs of the splitter over bytes

One byte either moves the parse state or completes a message.  Both keep the
splitter consistent, so that every state of a run over any byte stream is
consistent until an access leaves its block.
-/

namespace MercuryFix

open DecimalText ByteBlock

variable {args : SplitterArgs} {s : Splitter}

def Splitter.copied (s : Splitter) (byte : UInt8) : Splitter :=
  { s with
    delta := { s.delta with data := s.delta.data.set s.offset byte }
    bytesLeftToCopy := s.bytesLeftToCopy - 1
    offset := s.offset + 1 }

theorem Copying.memcpy_byte (copying : Copying args s)
    (left : 0 < s.bytesLeftToCopy) (byte : UInt8) :
    memcpy s.delta.data s.offset [byte] = some (s.copied byte).delta.data := by
  have inside : s.offset < s.delta.data.length := by
    have covered := copying.covered
    have room := copying.room
    omega
  rw [memcpy_of_fits inside, blit_singleton inside]
  rfl

theorem Copying.copied (copying : Copying args s) (left : 0 < s.bytesLeftToCopy) {byte : UInt8}
    (first : s.offset = headerLength args s → byte = args.soh) :
    Copying args (s.copied byte) where
  text := copying.text
  short := copying.short
  inRange := copying.inRange
  nonzero := copying.nonzero
  size := copying.size
  bounded := copying.bounded
  covered := by
    have covered := copying.covered
    simp only [Splitter.copied]
    omega
  room := by
    simp only [Splitter.copied, List.length_set]
    exact copying.room
  header := by
    have kept : (s.delta.data.set s.offset byte).take (headerLength args s) =
        s.delta.data.take (headerLength args s) :=
      List.take_set_of_le copying.behind
    exact kept.trans copying.header
  behind := Nat.le_succ_of_le copying.behind
  delimiter := by
    intro _
    have inside : s.offset < s.delta.data.length := by
      have covered := copying.covered
      have room := copying.room
      omega
    change (s.delta.data.set s.offset byte)[headerLength args s]? = some args.soh
    rcases Nat.lt_or_eq_of_le copying.behind with beyond | atDelimiter
    · rw [List.getElem?_set_ne (by omega)]
      exact copying.delimiter beyond
    · rw [atDelimiter, List.getElem?_set_self inside, first atDelimiter.symm]

structure Ready (args : SplitterArgs) (byte : UInt8) (s : Splitter) : Prop
    extends Copying args s where
  atCopying : s.state = .copyingBody
  noFault : s.fault = none
  lengthStr : s.lengthStr.length = 32
  counter : s.expected < 2 ^ 64
  first : s.offset = headerLength args s → byte = args.soh

theorem headerByte_ready (consistent : Consistent args s) (noFault : s.fault = none) {byte : UInt8}
    (accepts : (headerByte args byte s).2 = true) :
    Ready args byte (headerByte args byte s).1 ∧ (headerByte args byte s).1.expected = s.expected ∧
      (headerByte args byte s).1.erange = s.erange ∧
      bodyLengthOverflows args s byte = false ∧
      ((headerByte args byte s).1.bytesLeftToCopy = 0 → s.state = .findingBodyLength) := by
  by_cases phase : s.state = .copyingBody
  · obtain ⟨copying, left, beyond⟩ := consistent.copying phase
    rw [headerByte_of_copying phase]
    refine ⟨?_, rfl, rfl, by simp [bodyLengthOverflows, phase], ?_⟩
    · exact { copying with
          atCopying := phase
          noFault := noFault
          lengthStr := consistent.lengthStr
          counter := consistent.counter
          first := fun equal => absurd equal (Nat.ne_of_gt beyond) }
    · intro none
      simp only at none
      omega
  · obtain ⟨expectedEq, erangeEq, result⟩ := headerByte_sound consistent noFault phase byte
    rcases result with ⟨_, delimiter, finding, cleared, runs, accepted⟩ | refused
    · rw [cleared, eq_comm, Bool.or_eq_false_iff] at erangeEq
      refine ⟨?_, expectedEq, cleared.trans erangeEq.1.symm, erangeEq.2, fun _ => finding⟩
      exact { accepted with
          noFault := runs
          counter := expectedEq ▸ consistent.counter
          first := fun _ => delimiter }
    · rw [refused.1] at accepts
      cases accepts

theorem progress_of_refused {byte : UInt8} (noFault : s.fault = none)
    (refused : (headerByte args byte s).2 = false) :
    progress args s byte = .moved (headerByte args byte s).1.settled := by
  rw [progress, if_neg (by simp [noFault])]
  exact if_pos refused

theorem progress_of_wrapped {byte : UInt8} (noFault : s.fault = none)
    (accepts : (headerByte args byte s).2 = true)
    (wrapped : (headerByte args byte s).1.bytesLeftToCopy = 0) :
    progress args s byte = .found (headerByte args byte s).1 false := by
  rw [progress, if_neg (by simp [noFault])]
  simp only [accepts, wrapped, ↓reduceIte, Bool.true_eq_false]

theorem progress_of_copied {byte : UInt8} (noFault : s.fault = none)
    (accepts : (headerByte args byte s).2 = true)
    (ready : Ready args byte (headerByte args byte s).1)
    (left : 0 < (headerByte args byte s).1.bytesLeftToCopy) :
    progress args s byte = if (headerByte args byte s).1.bytesLeftToCopy = 1 then
        .found ((headerByte args byte s).1.copied byte) true
      else .moved ((headerByte args byte s).1.copied byte) := by
  have some_left : (headerByte args byte s).1.bytesLeftToCopy ≠ 0 := by omega
  rw [progress, if_neg (by simp [noFault])]
  simp only [accepts, some_left, ↓reduceIte, Bool.true_eq_false, ready.memcpy_byte left]
  by_cases last : (headerByte args byte s).1.bytesLeftToCopy = 1
  · simp only [last, ↓reduceIte, Nat.sub_self]
    simp only [Splitter.copied, last, Nat.sub_self]
  · rw [if_neg (by omega), if_neg last]
    rfl

/-- A complete message in the delta entry, before anything is checked. -/
structure Assembled (args : SplitterArgs) (s : Splitter) : Prop
    extends Copying args s where
  complete : s.bytesLeftToCopy = 0
  noFault : s.fault = none
  lengthStr : s.lengthStr.length = 32
  counter : s.expected < 2 ^ 64

theorem Ready.assembled {byte : UInt8} (ready : Ready args byte s)
    (complete : s.bytesLeftToCopy = 0) : Assembled args s :=
  { ready with complete := complete }

theorem Ready.copied_assembled {byte : UInt8} (ready : Ready args byte s)
    (last : s.bytesLeftToCopy = 1) : Assembled args (s.copied byte) :=
  { ready.toCopying.copied (by omega) ready.first with
    complete := by simp only [Splitter.copied, last, Nat.sub_self]
    noFault := ready.noFault
    lengthStr := ready.lengthStr
    counter := ready.counter }

theorem Ready.copied_consistent {byte : UInt8} (ready : Ready args byte s)
    (more : 1 < s.bytesLeftToCopy) : Consistent args (s.copied byte) where
  lengthStr := ready.lengthStr
  counter := ready.counter
  size := ready.bounded
  room := by
    left
    simp only [Splitter.copied, List.length_set]
    exact ready.room
  finding := by
    intro impossible
    rw [show (s.copied byte).state = .copyingBody from ready.atCopying] at impossible
    cases impossible
  copying := by
    intro _
    refine ⟨ready.toCopying.copied (by omega) ready.first, ?_, ?_⟩
    · simp only [Splitter.copied]
      omega
    · exact Nat.lt_succ_of_le ready.behind

theorem progress_moved (consistent : Consistent args s)
    (noFault : s.fault = none) {byte : UInt8} {next : Splitter}
    (moves : progress args s byte = .moved next) :
    Sound args next ∧ next.expected = s.expected ∧
      next.erange = (s.erange || bodyLengthOverflows args s byte) := by
  cases accepts : (headerByte args byte s).2 with
  | false =>
    rw [progress_of_refused noFault accepts] at moves
    cases moves
    have phase : s.state ≠ .copyingBody := by
      intro phase
      rw [headerByte_of_copying phase] at accepts
      cases accepts
    obtain ⟨expectedEq, erangeEq, result⟩ := headerByte_sound consistent noFault phase byte
    rcases result with ⟨impossible, _⟩ | ⟨_, _, sound⟩
    · rw [accepts] at impossible
      cases impossible
    · refine ⟨sound.settled, ?_, ?_⟩
      · rw [Splitter.settled_expected, expectedEq]
      · rw [Splitter.settled_erange, erangeEq]
  | true =>
    obtain ⟨ready, expectedEq, erangeEq, noOverflow, _⟩ :=
      headerByte_ready consistent noFault accepts
    rcases Nat.eq_zero_or_pos (headerByte args byte s).1.bytesLeftToCopy with wrapped | left
    · rw [progress_of_wrapped noFault accepts wrapped] at moves
      cases moves
    · rw [progress_of_copied noFault accepts ready left] at moves
      split at moves
      · cases moves
      · rename_i notLast
        cases moves
        refine ⟨fun _ => ready.copied_consistent (by omega), expectedEq, ?_⟩
        rw [noOverflow, Bool.or_false]
        exact erangeEq

variable {message : Splitter} {consumed : Bool}

theorem progress_found (consistent : Consistent args s) (noFault : s.fault = none) {byte : UInt8}
    (found : progress args s byte = .found message consumed) :
    Assembled args message ∧ message.expected = s.expected ∧
      message.erange = s.erange ∧ bodyLengthOverflows args s byte = false := by
  cases accepts : (headerByte args byte s).2 with
  | false =>
    rw [progress_of_refused noFault accepts] at found
    cases found
  | true =>
    obtain ⟨ready, expectedEq, erangeEq, noOverflow, _⟩ :=
      headerByte_ready consistent noFault accepts
    rcases Nat.eq_zero_or_pos (headerByte args byte s).1.bytesLeftToCopy with wrapped | left
    · rw [progress_of_wrapped noFault accepts wrapped] at found
      cases found
      exact ⟨ready.assembled wrapped, expectedEq, erangeEq, noOverflow⟩
    · rw [progress_of_copied noFault accepts ready left] at found
      split at found
      · rename_i last
        cases found
        exact ⟨ready.copied_assembled last, expectedEq, erangeEq, noOverflow⟩
      · cases found

theorem Assembled.restarted (assembled : Assembled args s) : Consistent args s.restarted where
  lengthStr := assembled.lengthStr
  counter := assembled.counter
  size := assembled.bounded
  room := Or.inl assembled.room
  finding := by intro impossible; cases impossible
  copying := by intro impossible; cases impossible

theorem splitByte_of_fault {byte : UInt8} (fault : s.fault ≠ none) :
    splitByte args s byte = (s, []) := by
  have moves : progress args s byte = .moved s := if_pos fault
  rw [splitByte, moves]

theorem splitByte_of_moved {byte : UInt8} {next : Splitter}
    (moves : progress args s byte = .moved next) :
    splitByte args s byte = (next, []) := by
  rw [splitByte, moves]

theorem splitByte_of_found {byte : UInt8} (found : progress args s byte = .found message consumed) :
    splitByte args s byte = (if consumed || (handled args message).fault.isSome then
          (handled args message).settled
        else (headerByte args byte (handled args message)).1.settled,
        messageEffects args message) := by
  rw [splitByte, found]

theorem headerByte_searching (consistent : Consistent args s)
    (noFault : s.fault = none) (phase : s.state = .findingBeginString) (byte : UInt8) :
    (headerByte args byte s).2 = false ∧ (headerByte args byte s).1.state ≠ .copyingBody ∧
      (headerByte args byte s).1.expected = s.expected ∧
      (headerByte args byte s).1.erange = s.erange ∧
      Sound args (headerByte args byte s).1 := by
  obtain ⟨expectedEq, erangeEq, result⟩ :=
    headerByte_sound consistent noFault (by simp [phase]) byte
  have noOverflow : bodyLengthOverflows args s byte = false := by
    simp [bodyLengthOverflows, phase]
  rw [noOverflow, Bool.or_false] at erangeEq
  rcases result with ⟨_, _, finding, _⟩ | ⟨refused, header, sound⟩
  · rw [phase] at finding
    cases finding
  · exact ⟨refused, header, expectedEq, erangeEq, sound⟩

theorem splitByte_sound (sound : Sound args s) (byte : UInt8) :
    Sound args (splitByte args s byte).1 := by
  by_cases fault : s.fault = none
  · have consistent := sound fault
    cases step : progress args s byte with
    | moved next =>
      rw [splitByte_of_moved step]
      exact (progress_moved consistent fault step).1
    | found message consumed =>
      obtain ⟨assembled, _⟩ := progress_found consistent fault step
      have sound := handled_sound assembled.restarted
      rw [splitByte_of_found step]
      dsimp only
      split
      · exact sound.settled
      · rename_i again
        rw [Bool.or_eq_true, not_or, Option.not_isSome_iff_eq_none] at again
        exact (headerByte_searching (sound again.2) again.2
          (handled_state args message) byte).2.2.2.2.settled
  · rw [splitByte_of_fault fault]
    exact sound

theorem splitByte_kept {byte : UInt8} (assembled : Assembled args message)
    (found : progress args s byte = .found message consumed) :
    (splitByte args s byte).1.expected = (handled args message).expected ∧
      (splitByte args s byte).1.erange = (handled args message).erange := by
  rw [splitByte_of_found found]
  dsimp only
  split
  · exact ⟨Splitter.settled_expected _, Splitter.settled_erange _⟩
  · rename_i again
    rw [Bool.or_eq_true, not_or, Option.not_isSome_iff_eq_none] at again
    rw [Splitter.settled_expected, Splitter.settled_erange]
    obtain ⟨-, -, expectedEq, erangeEq, -⟩ :=
      headerByte_searching (handled_sound assembled.restarted again.2)
        again.2 (handled_state args message) byte
    exact ⟨expectedEq, erangeEq⟩

theorem splitByte_expected {byte : UInt8} (assembled : Assembled args message)
    (found : progress args s byte = .found message consumed) :
    (splitByte args s byte).1.expected = (handled args message).expected :=
  (splitByte_kept assembled found).1

theorem handled_runs {byte : UInt8} (found : progress args s byte = .found message consumed)
    (runs : (splitByte args s byte).1.fault = none) :
    (handled args message).fault = none := by
  rw [splitByte_of_found found] at runs
  dsimp only at runs
  split at runs
  · rwa [Splitter.settled_fault] at runs
  · rename_i again
    rw [Bool.or_eq_true, not_or, Option.not_isSome_iff_eq_none] at again
    exact again.2

theorem noFault_of_found {byte : UInt8} (found : progress args s byte = .found message consumed) :
    s.fault = none := by
  by_contra fault
  rw [progress, if_pos fault] at found
  cases found

theorem splitBytes_sound (sound : Sound args s) (stream : List UInt8) :
    Sound args (splitBytes args s stream).1 := by
  apply MealyMachine.run_invariant _ sound
  intro s byte sound
  exact splitByte_sound sound byte

end MercuryFix
