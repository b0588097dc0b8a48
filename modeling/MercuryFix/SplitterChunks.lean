import MercuryFix.SplitterSteps

/-!
# The splitter on entries and on bytes

The source copies as much of a body as an entry holds with one `memcpy`.
Here every pass through its `switch` is matched with the bytes it consumes, so
that handling an entry is a run of the byte splitter, and the way a stream is
cut into entries does not matter.
-/

namespace MercuryFix

open DecimalText ByteBlock

variable {args : SplitterArgs} {s : Splitter}

section Settled

theorem consistent_settled_iff : Consistent args s.settled ↔ Consistent args s := by
  constructor
  · intro consistent
    by_cases phase : s.state = .copyingBody
    · rwa [Splitter.settled_of_copying phase] at consistent
    · rw [Splitter.settled, if_neg phase] at consistent
      exact { consistent with
          copying := fun impossible => absurd impossible phase }
  · exact Consistent.settled

theorem sound_settled_iff : Sound args s.settled ↔ Sound args s := by
  simp only [Sound, Splitter.settled_fault, consistent_settled_iff]

theorem headerByte_settled_snd (byte : UInt8) :
    (headerByte args byte s.settled).2 = (headerByte args byte s).2 := by
  have equal := congrArg Prod.snd (headerByte_settled args s byte)
  exact equal

theorem headerByte_settled_fst (byte : UInt8) :
    (headerByte args byte s.settled).1.settled = (headerByte args byte s).1.settled :=
  congrArg Prod.fst (headerByte_settled args s byte)

theorem progress_congr {t : Splitter} {byte : UInt8} (noFault : s.fault = none)
    (runs : t.fault = none) (equal : headerByte args byte t = headerByte args byte s) :
    progress args t byte = progress args s byte := by
  rw [progress, progress, if_neg (not_not.mpr noFault), if_neg (not_not.mpr runs), equal]

theorem progress_settled (consistent : Consistent args s)
    (noFault : s.fault = none) (byte : UInt8) :
    progress args s.settled byte = progress args s byte := by
  have settledRuns : s.settled.fault = none := by simpa using noFault
  have answer : (headerByte args byte s.settled).2 = _ := headerByte_settled_snd byte
  have result : (headerByte args byte s.settled).1.settled = _ := headerByte_settled_fst byte
  cases accepts : (headerByte args byte s).2 with
  | false =>
    rw [progress_of_refused noFault accepts,
      progress_of_refused settledRuns (answer.trans accepts), result]
  | true =>
    have ready := (headerByte_ready consistent noFault accepts).1
    have settledReady := (headerByte_ready consistent.settled settledRuns (answer.trans accepts)).1
    rw [Splitter.settled_of_copying ready.atCopying,
      Splitter.settled_of_copying settledReady.atCopying] at result
    exact progress_congr noFault settledRuns (Prod.ext result answer)

theorem splitByte_settled (consistent : Consistent args s)
    (noFault : s.fault = none) (byte : UInt8) :
    splitByte args s.settled byte = splitByte args s byte := by
  simp only [splitByte, progress_settled consistent noFault byte]

theorem restarted_recounted (bytesLeft offset : Nat) :
    (s.recounted bytesLeft offset).restarted.settled = s.restarted.settled := by
  simp [Splitter.settled, Splitter.recounted, Splitter.restarted]

theorem handled_recounted (bytesLeft offset : Nat) :
    (handled args (s.recounted bytesLeft offset)).settled = (handled args s).settled := by
  rw [handled, messageComplete_recounted]
  exact restarted_recounted bytesLeft offset

theorem messageEffects_recounted (bytesLeft offset : Nat) :
    messageEffects args (s.recounted bytesLeft offset) = messageEffects args s := by
  rw [messageEffects, messageComplete_recounted]
  rfl

end Settled

section Copying

def Splitter.copiedAll (s : Splitter) (bytes : List UInt8) : Splitter :=
  bytes.foldl Splitter.copied s

theorem copiedAll_cons (byte : UInt8) (bytes : List UInt8) :
    s.copiedAll (byte :: bytes) = (s.copied byte).copiedAll bytes :=
  rfl

theorem copiedAll_eq {bytes : List UInt8} (fits : s.offset + bytes.length ≤ s.delta.data.length) :
    s.copiedAll bytes = { s with delta := { s.delta with
          data := blit s.delta.data s.offset bytes } }.recounted
        (s.bytesLeftToCopy - bytes.length) (s.offset + bytes.length) := by
  induction bytes generalizing s with
  | nil =>
    rw [blit_nil]
    rfl
  | cons byte bytes induction =>
    rw [List.length_cons] at fits
    have inside : s.offset < s.delta.data.length := by omega
    have both : blit (s.delta.data.set s.offset byte) (s.offset + 1) bytes =
        blit s.delta.data s.offset (byte :: bytes) := by
      rw [← blit_singleton inside]
      exact blit_blit inside
    have later := induction (s := s.copied byte) (by
      simp only [Splitter.copied, List.length_set]
      omega)
    rw [copiedAll_cons, later]
    simp only [Splitter.copied, Splitter.recounted, both, List.length_cons]
    congr 1
    · omega
    · omega

theorem Ready.copied_ready {byte : UInt8} (ready : Ready args byte s)
    (more : 1 < s.bytesLeftToCopy) (next : UInt8) :
    Ready args next (s.copied byte) :=
  { ready.toCopying.copied (by omega) ready.first with
    atCopying := ready.atCopying
    noFault := ready.noFault
    lengthStr := ready.lengthStr
    counter := ready.counter
    first := by
      intro equal
      have behind := ready.behind
      change s.offset + 1 = headerLength args s at equal
      omega }

theorem Ready.progress_eq {byte : UInt8} (ready : Ready args byte s)
    (left : 0 < s.bytesLeftToCopy) :
    progress args s byte = if s.bytesLeftToCopy = 1 then .found (s.copied byte) true
      else .moved (s.copied byte) := by
  have header : headerByte args byte s = (s, true) := headerByte_of_copying ready.atCopying byte
  rw [progress_of_copied ready.noFault (by rw [header])
    (by rw [header]; exact ready) (by rw [header]; exact left), header]

theorem Ready.copy_one {byte : UInt8} (ready : Ready args byte s) (more : 1 < s.bytesLeftToCopy) :
    splitByte args s byte = (s.copied byte, []) := by
  apply splitByte_of_moved
  rw [ready.progress_eq (by omega), if_neg (by omega)]

theorem Ready.copy_last {byte : UInt8} (ready : Ready args byte s) (last : s.bytesLeftToCopy = 1) :
    splitByte args s byte =
      ((handled args (s.copied byte)).settled, messageEffects args (s.copied byte)) := by
  have found : progress args s byte = .found (s.copied byte) true := by
    rw [ready.progress_eq (by omega), if_pos last]
  rw [splitByte_of_found found, Bool.true_or, if_pos rfl]

theorem Ready.splitBytes_part {byte : UInt8} {rest : List UInt8} (ready : Ready args byte s)
    (more : rest.length + 1 < s.bytesLeftToCopy) :
    splitBytes args s (byte :: rest) = (s.copiedAll (byte :: rest), []) := by
  induction rest generalizing s byte with
  | nil =>
    rw [splitBytes, MealyMachine.run_cons, ready.copy_one (by simpa using more)]
    rfl
  | cons next rest induction =>
    rw [List.length_cons] at more
    have left : rest.length + 1 < (s.copied byte).bytesLeftToCopy := by
      simp only [Splitter.copied]
      omega
    have later := induction (ready.copied_ready (by omega) next) left
    rw [splitBytes] at later
    rw [splitBytes, MealyMachine.run_cons, ready.copy_one (by omega), later]
    rfl

theorem Ready.splitBytes_whole {byte : UInt8} {rest : List UInt8} (ready : Ready args byte s)
    (whole : rest.length + 1 = s.bytesLeftToCopy) :
    splitBytes args s (byte :: rest) = ((handled args (s.copiedAll (byte :: rest))).settled,
        messageEffects args (s.copiedAll (byte :: rest))) := by
  induction rest generalizing s byte with
  | nil =>
    rw [splitBytes, MealyMachine.run_cons,
      ready.copy_last (by simpa using whole.symm), copiedAll_cons]
    simp only [MealyMachine.run_nil, List.append_nil, Splitter.copiedAll, List.foldl_nil]
  | cons next rest induction =>
    rw [List.length_cons] at whole
    have left : rest.length + 1 = (s.copied byte).bytesLeftToCopy := by
      simp only [Splitter.copied]
      omega
    have later := induction (ready.copied_ready (by omega) next) left
    rw [splitBytes] at later
    rw [splitBytes, MealyMachine.run_cons, ready.copy_one (by omega), later,
      copiedAll_cons byte (next :: rest), List.nil_append]

end Copying

section Entries

variable {content : List UInt8} {k : Nat}

theorem switchPass_eq (args : SplitterArgs) (content : List UInt8) (k : Nat) (s : Splitter) :
    switchPass args content k s = if (headerByte args (content.getD k 0) s).2 then
        copyingBody args content k (headerByte args (content.getD k 0) s).1
      else ((headerByte args (content.getD k 0) s).1, k, []) := by
  cases phase : s.state with
  | copyingBody =>
    rw [headerByte_of_copying phase]
    simp only [switchPass, phase, if_true]
  | findingBodyLength =>
    rw [headerByte_of_bodyLength phase]
    simp only [switchPass, phase, fromBodyLength]
  | findingBeginString =>
    rw [headerByte_of_beginString phase]
    simp only [switchPass, phase]
    rcases findingBeginString_cases args (content.getD k 0) s with
      found | ⟨l, searching⟩
    · simp only [found, if_true, fromBodyLength]
    · simp only [searching, Bool.false_eq_true, if_false]

/-- What one pass through the `switch` has to do with the bytes from `k` on:
handling them is handling what the pass leaves, after the effects of the
pass. -/
structure PassRefines (args : SplitterArgs) (content : List UInt8) (k : Nat)
    (s next : Splitter) (k' : Nat) (effects : List Effect) : Prop where
  advances : k ≤ k'
  sound : Sound args next
  progresses : k' = k → next.state = .findingBeginString ∧ s.state ≠ .findingBeginString
  consumes : splitBytes args s.settled (content.drop k) =
    ((splitBytes args next.settled (content.drop k')).1,
      effects ++ (splitBytes args next.settled (content.drop k')).2)

theorem drop_eq_getD_cons (inside : k < content.length) :
    content.drop k = content.getD k 0 :: content.drop (k + 1) := by
  rw [List.drop_eq_getElem_cons inside]
  simp [inside]

theorem splitBytes_cons (args : SplitterArgs) (s : Splitter) (byte : UInt8) (rest : List UInt8) :
    splitBytes args s (byte :: rest) = ((splitBytes args (splitByte args s byte).1 rest).1,
        (splitByte args s byte).2 ++ (splitBytes args (splitByte args s byte).1 rest).2) :=
  rfl

theorem splitBytes_concat_state (args : SplitterArgs) (s : Splitter)
    (read : List UInt8) (byte : UInt8) :
    (splitBytes args s (read ++ [byte])).1 = (splitByte args (splitBytes args s read).1 byte).1 :=
  MealyMachine.run_concat_state s read byte

theorem splitBytes_settled (consistent : Consistent args s)
    (noFault : s.fault = none) (byte : UInt8) (rest : List UInt8) :
    splitBytes args s.settled (byte :: rest) = splitBytes args s (byte :: rest) := by
  rw [splitBytes_cons, splitBytes_cons, splitByte_settled consistent noFault]

theorem passRefines_refused (consistent : Consistent args s)
    (noFault : s.fault = none) (inside : k < content.length)
    (refused : (headerByte args (content.getD k 0) s).2 = false) :
    PassRefines args content k s (headerByte args (content.getD k 0) s).1 (k + 1) [] where
  advances := Nat.le_succ k
  sound := sound_settled_iff.mp
    (progress_moved consistent noFault (progress_of_refused noFault refused)).1
  progresses := fun impossible => absurd impossible (by omega)
  consumes := by
    rw [drop_eq_getD_cons inside, splitBytes_settled consistent noFault, splitBytes_cons,
      splitByte_of_moved (progress_of_refused noFault refused)]

theorem drop_eq_take_append (k count : Nat) :
    content.drop k = (content.drop k).take count ++ content.drop (k + count) := by
  rw [← List.drop_drop, List.take_append_drop]

theorem Ready.splitBytes_header {byte : UInt8} {rest : List UInt8} (noFault : s.fault = none)
    (accepts : (headerByte args byte s).2 = true)
    (ready : Ready args byte (headerByte args byte s).1) :
    splitBytes args (headerByte args byte s).1 (byte :: rest) =
      splitBytes args s (byte :: rest) := by
  have equal : headerByte args byte (headerByte args byte s).1 = headerByte args byte s := by
    rw [headerByte_of_copying ready.atCopying, ← accepts]
  have same : splitByte args (headerByte args byte s).1 byte = splitByte args s byte := by
    simp only [splitByte, progress_congr noFault ready.noFault equal]
  rw [splitBytes_cons, splitBytes_cons, same]

theorem passRefines_part {t : Splitter} (sound : Sound args s) (inside : k < content.length)
    (header : splitBytes args s.settled (content.drop k) = splitBytes args t (content.drop k))
    (ready : Ready args (content.getD k 0) t)
    (part : content.length - k < t.bytesLeftToCopy) :
    ∃ next, copyingBody args content k t = (next, content.length, []) ∧
      PassRefines args content k s next (content.length + 1) [] := by
  have covered := ready.covered
  have room := ready.room
  have count : (content.drop k).length = content.length - k := List.length_drop
  have fits : t.offset + (content.drop k).length ≤ t.delta.data.length := by
    omega
  have copied := copiedAll_eq fits
  have runs : splitBytes args t (content.drop k) = (t.copiedAll (content.drop k), []) := by
    rw [drop_eq_getD_cons inside] at count ⊢
    rw [List.length_cons] at count
    exact ready.splitBytes_part (by omega)
  refine ⟨t.copiedAll (content.drop k), ?_, ?_⟩
  · rw [copyingBody, if_neg (by omega), memcpy_of_fits fits, copied, count]
    rfl
  · have run := splitBytes_sound sound.settled (content.drop k)
    rw [header, runs] at run
    refine ⟨by omega, run, fun impossible => absurd impossible (by omega), ?_⟩
    have phase : (t.copiedAll (content.drop k)).state = .copyingBody := by
      rw [copied]
      exact ready.atCopying
    rw [header, runs, List.drop_of_length_le (Nat.le_succ content.length),
      Splitter.settled_of_copying phase]
    rfl

def Splitter.blitted (s : Splitter) (bytes : List UInt8) : Splitter :=
  { s with delta := { s.delta with data := blit s.delta.data s.offset bytes } }

theorem copyingBody_of_whole {t : Splitter} (whole : t.bytesLeftToCopy ≤ content.length - k)
    (fits : t.offset + ((content.drop k).take t.bytesLeftToCopy).length ≤ t.delta.data.length) :
    copyingBody args content k t =
      (handled args (t.blitted ((content.drop k).take t.bytesLeftToCopy)),
        (k + (t.bytesLeftToCopy + 2 ^ 32 - 1)) % 2 ^ 32,
        messageEffects args (t.blitted ((content.drop k).take t.bytesLeftToCopy))) := by
  rw [copyingBody, if_pos whole, memcpy_of_fits fits]
  rfl

theorem Ready.blitted_restarted {byte : UInt8} (ready : Ready args byte s) {bytes : List UInt8}
    (fits : s.offset + bytes.length ≤ s.delta.data.length) :
    Consistent args (s.blitted bytes).restarted where
  lengthStr := ready.lengthStr
  counter := ready.counter
  size := ready.bounded
  room := by
    left
    change s.delta.size ≤ (blit s.delta.data s.offset bytes).length
    rw [length_blit fits]
    exact ready.room
  finding := by intro impossible; cases impossible
  copying := by intro impossible; cases impossible

theorem passRefines_whole {t : Splitter} (inside : k < content.length)
    (header : splitBytes args s.settled (content.drop k) = splitBytes args t (content.drop k))
    (ready : Ready args (content.getD k 0) t)
    (left : 0 < t.bytesLeftToCopy)
    (whole : t.bytesLeftToCopy ≤ content.length - k) :
    PassRefines args content k s
      (handled args (t.blitted ((content.drop k).take t.bytesLeftToCopy)))
      (k + t.bytesLeftToCopy)
      (messageEffects args (t.blitted ((content.drop k).take t.bytesLeftToCopy))) := by
  set chunk := (content.drop k).take t.bytesLeftToCopy with chunkEq
  have covered := ready.covered
  have room := ready.room
  have count : chunk.length = t.bytesLeftToCopy := by
    rw [chunkEq, List.length_take, List.length_drop]
    omega
  have copied : t.copiedAll chunk = (t.blitted chunk).recounted _ _ := copiedAll_eq (by omega)
  have runs : splitBytes args t chunk =
      ((handled args (t.copiedAll chunk)).settled, messageEffects args (t.copiedAll chunk)) := by
    have split : chunk = content.getD k 0 ::
        (content.drop (k + 1)).take (t.bytesLeftToCopy - 1) := by
      rw [chunkEq, drop_eq_getD_cons inside, List.take_cons left]
    rw [split] at count ⊢
    exact ready.splitBytes_whole count
  rw [copied, handled_recounted, messageEffects_recounted] at runs
  refine ⟨by omega, handled_sound (ready.blitted_restarted (by omega)),
    fun impossible => absurd impossible (by omega), ?_⟩
  rw [header, drop_eq_take_append k t.bytesLeftToCopy, ← chunkEq, splitBytes,
    MealyMachine.run_append]
  rw [splitBytes] at runs
  rw [runs]
  rfl

theorem splitBytes_of_fault (fault : s.fault ≠ none) (stream : List UInt8) :
    splitBytes args s stream = (s, []) := by
  induction stream with
  | nil => rfl
  | cons byte rest induction =>
    rw [splitBytes_cons, splitByte_of_fault fault, induction]
    rfl

/-- A body whose count of bytes wraps to nothing is complete before its
delimiter is consumed. -/
theorem passRefines_wrapped (consistent : Consistent args s)
    (noFault : s.fault = none) (inside : k < content.length)
    (accepts : (headerByte args (content.getD k 0) s).2 = true)
    (wrapped : (headerByte args (content.getD k 0) s).1.bytesLeftToCopy = 0) :
    PassRefines args content k s (handled args (headerByte args (content.getD k 0) s).1) k
      (messageEffects args (headerByte args (content.getD k 0) s).1) := by
  obtain ⟨ready, _, _, _, finding⟩ := headerByte_ready consistent noFault accepts
  set t := (headerByte args (content.getD k 0) s).1 with tEq
  have sound : Sound args (handled args t) := handled_sound (ready.assembled wrapped).restarted
  refine ⟨le_refl k, sound, fun _ => ⟨handled_state args t, ?_⟩, ?_⟩
  · rw [finding wrapped]
    simp
  · have found := progress_of_wrapped noFault accepts wrapped
    rw [drop_eq_getD_cons inside, splitBytes_settled consistent noFault,
      splitBytes_cons, splitByte_of_found found, ← tEq]
    by_cases fault : (handled args t).fault = none
    · have refused := (headerByte_searching (sound fault) fault
        (handled_state args t) (content.getD k 0)).1
      rw [splitBytes_settled (sound fault) fault, splitBytes_cons args (handled args t),
        splitByte_of_moved (progress_of_refused fault refused), fault]
      rfl
    · have settledFault : (handled args t).settled.fault ≠ none := by
        simpa using fault
      have some_fault : (handled args t).fault.isSome = true := Option.isSome_iff_ne_none.mpr fault
      rw [some_fault, Bool.or_true, if_pos rfl,
        splitBytes_of_fault settledFault, splitBytes_of_fault settledFault]

theorem switchPass_refines (consistent : Consistent args s)
    (noFault : s.fault = none) (inside : k < content.length) (small : content.length + 1 < 2 ^ 32) :
    PassRefines args content k s (switchPass args content k s).1
      (((switchPass args content k s).2.1 + 1) % 2 ^ 32)
      (switchPass args content k s).2.2 := by
  rw [switchPass_eq]
  cases accepts : (headerByte args (content.getD k 0) s).2 with
  | false =>
    rw [if_neg Bool.false_ne_true, Nat.mod_eq_of_lt (by dsimp only; omega)]
    exact passRefines_refused consistent noFault inside accepts
  | true =>
    have ready := (headerByte_ready consistent noFault accepts).1
    have header : splitBytes args s.settled (content.drop k) =
        splitBytes args (headerByte args (content.getD k 0) s).1 (content.drop k) := by
      rw [drop_eq_getD_cons inside, splitBytes_settled consistent noFault,
        Ready.splitBytes_header noFault accepts ready]
    rw [if_pos rfl]
    by_cases whole : (headerByte args (content.getD k 0) s).1.bytesLeftToCopy ≤ content.length - k
    · have covered := ready.covered
      have room := ready.room
      rw [copyingBody_of_whole whole (by rw [List.length_take, List.length_drop]; omega)]
      rcases Nat.eq_zero_or_pos (headerByte args (content.getD k 0) s).1.bytesLeftToCopy with
        wrapped | left
      · have stays : ((k + (0 + 2 ^ 32 - 1)) % 2 ^ 32 + 1) % 2 ^ 32 = k := by
          omega
        rw [wrapped, List.take_zero, Splitter.blitted, blit_nil, stays]
        exact passRefines_wrapped consistent noFault inside accepts wrapped
      · have moves : ((k + ((headerByte args (content.getD k 0)
            s).1.bytesLeftToCopy + 2 ^ 32 - 1)) % 2 ^ 32 + 1) % 2 ^ 32 =
            k + (headerByte args (content.getD k 0) s).1.bytesLeftToCopy := by
          omega
        rw [moves]
        exact passRefines_whole inside header ready left whole
    · obtain ⟨next, copies, refines⟩ := passRefines_part
        (fun _ => consistent) inside header ready (by omega)
      rw [copies]
      dsimp only
      rw [Nat.mod_eq_of_lt small]
      exact refines

def roundsNeeded (content : List UInt8) (k : Nat) (s : Splitter) : Nat :=
  2 * (content.length - k) + if s.state = .findingBeginString then 0 else 1

theorem entryLoop_refines (small : content.length + 1 < 2 ^ 32)
    {rounds : Nat} (sound : Sound args s) (enough : roundsNeeded content k s ≤ rounds) :
    ((entryLoop args content rounds k s).1.settled, (entryLoop args content rounds k s).2) =
      splitBytes args s.settled (content.drop k) := by
  induction rounds generalizing k s with
  | zero =>
    have ended : content.length ≤ k := by
      unfold roundsNeeded at enough
      omega
    rw [List.drop_of_length_le ended]
    rfl
  | succ rounds induction =>
    rw [entryLoop]
    by_cases goesOn : k < content.length ∧ s.fault = none
    · rw [if_pos goesOn]
      obtain ⟨inside, noFault⟩ := goesOn
      obtain ⟨advances, nextSound, progresses, consumes⟩ :=
        switchPass_refines (sound noFault) noFault inside small
      have fewer : roundsNeeded content (((switchPass args content k s).2.1 + 1) % 2 ^ 32)
          (switchPass args content k s).1 ≤ rounds := by
        unfold roundsNeeded at enough ⊢
        by_cases stays : ((switchPass args content k s).2.1 + 1) % 2 ^ 32 = k
        · obtain ⟨restarted, before⟩ := progresses stays
          rw [if_neg before] at enough
          rw [stays, if_pos restarted]
          omega
        · split <;> omega
      have rest := induction nextSound fewer
      rw [consumes, ← rest]
    · rw [if_neg goesOn]
      by_cases inside : k < content.length
      · have fault : s.settled.fault ≠ none := by
          rw [Splitter.settled_fault]
          exact fun noFault => goesOn ⟨inside, noFault⟩
        rw [splitBytes_of_fault fault]
      · rw [List.drop_of_length_le (not_lt.mp inside)]
        rfl

theorem splitEntry_refines (sound : Sound args s) (entry : FoxtrotEntry) :
    ((splitEntry args s entry).1.settled, (splitEntry args s entry).2) =
      splitBytes args s.settled entry.data := by
  have fits := entry.fits
  unfold foxtrotMaxDataSize at fits
  have enough : roundsNeeded entry.data 0 s ≤ 2 * entry.data.length + 1 := by
    unfold roundsNeeded
    split <;> omega
  exact entryLoop_refines (by omega) sound enough

theorem splitEntry_sound (sound : Sound args s) (entry : FoxtrotEntry) :
    Sound args (splitEntry args s entry).1 := by
  have run := splitBytes_sound sound.settled entry.data
  rw [← splitEntry_refines sound] at run
  exact sound_settled_iff.mp run

def streamOf (entries : List FoxtrotEntry) : List UInt8 := entries.flatMap FoxtrotEntry.data

theorem splitEntries_refines (sound : Sound args s) (entries : List FoxtrotEntry) :
    ((splitEntries args s entries).1.settled, (splitEntries args s entries).2) =
      splitBytes args s.settled (streamOf entries) :=
  MealyMachine.run_chunks (fun _ entry sound => splitEntry_sound sound entry)
    (fun _ entry sound => splitEntry_refines sound entry) sound entries

theorem sound_initial (args : SplitterArgs) (lastReceived : UInt64) :
    Sound args (.initial lastReceived) :=
  fun _ => consistent_initial args lastReceived

theorem splitEntries_effects (args : SplitterArgs) (lastReceived : UInt64)
    (entries : List FoxtrotEntry) :
    (splitEntries args (.initial lastReceived) entries).2 =
      (splitBytes args (.initial lastReceived) (streamOf entries)).2 := by
  have effects := congrArg Prod.snd (splitEntries_refines (sound_initial args lastReceived) entries)
  exact effects

theorem splitEntries_effects_at (args : SplitterArgs) (lastReceived : UInt64)
    {entries : List FoxtrotEntry} {before after : List UInt8} {byte : UInt8}
    (splits : streamOf entries = before ++ byte :: after) :
    (splitEntries args (.initial lastReceived) entries).2 =
      (splitBytes args (.initial lastReceived) before).2 ++
        ((splitByte args (splitBytes args (.initial lastReceived) before).1 byte).2 ++
        (splitBytes args (splitByte args
          (splitBytes args (.initial lastReceived) before).1 byte).1 after).2) := by
  rw [splitEntries_effects, splits]
  exact MealyMachine.run_append_outputs _ before (byte :: after)

theorem splitEntries_sound (sound : Sound args s) (entries : List FoxtrotEntry) :
    Sound args (splitEntries args s entries).1 := by
  apply MealyMachine.run_invariant _ sound
  intro s entry sound
  exact splitEntry_sound sound entry

end Entries

section Cuts

/-- Agreement of two splitter states, leaving out the copy counters where they
are dead. -/
structure SameParse (left right : Splitter) : Prop where
  state : left.state = right.state
  l : left.l = right.l
  lengthStr : left.lengthStr = right.lengthStr
  delta : left.delta = right.delta
  expected : left.expected = right.expected
  erange : left.erange = right.erange
  fault : left.fault = right.fault
  bytesLeftToCopy : left.state = .copyingBody → left.bytesLeftToCopy = right.bytesLeftToCopy
  offset : left.state = .copyingBody → left.offset = right.offset

theorem sameParse_of_settled {left right : Splitter}
    (equal : left.settled = right.settled) : SameParse left right := by
  have stateEq : left.state = right.state := by
    simpa using congrArg Splitter.state equal
  by_cases phase : left.state = .copyingBody
  · rw [Splitter.settled_of_copying phase, Splitter.settled_of_copying (stateEq ▸ phase)] at equal
    subst equal
    constructor <;> intros <;> rfl
  · rw [Splitter.settled, Splitter.settled, if_neg phase, if_neg (stateEq ▸ phase)] at equal
    simp only [Splitter.mk.injEq] at equal
    obtain ⟨state, l, lengthStr, -, -, expected, erange, delta, -, fault⟩ := equal
    exact ⟨state, l, lengthStr, delta, expected, erange, fault,
      fun copying => absurd copying phase, fun copying => absurd copying phase⟩

/-- From any reachable state, the effects and the parse state do not depend on
how a stream is cut into entries. -/
theorem splitEntries_cut_independent (args : SplitterArgs)
    (lastReceived : UInt64) (history first second : List FoxtrotEntry)
    (sameStream : streamOf first = streamOf second) :
    let s := (splitEntries args (.initial lastReceived) history).1
    (splitEntries args s first).2 = (splitEntries args s second).2 ∧
      SameParse (splitEntries args s first).1
        (splitEntries args s second).1 := by
  intro s
  have sound : Sound args s :=
    splitEntries_sound (sound_initial args lastReceived) history
  have equal : ((splitEntries args s first).1.settled,
      (splitEntries args s first).2) =
        ((splitEntries args s second).1.settled,
          (splitEntries args s second).2) := by
    rw [splitEntries_refines sound, splitEntries_refines sound, sameStream]
  rw [Prod.mk.injEq] at equal
  exact ⟨equal.2, sameParse_of_settled equal.1⟩

def fix41Args : SplitterArgs where
  soh := 1
  beginString := ascii ['8', '=', 'F', 'I', 'X', '.', '4', '.', '1'] ++ 1 :: ascii ['9', '=']
  beyond := fun _ => 0
  dataTags := fun _ => false
  mallocSucceeds := fun _ => true
  terminated := by decide
  fits := by decide

def oneByteEntries (stream : List UInt8) : List FoxtrotEntry :=
  stream.map fun byte => ⟨[byte], by simp [foxtrotMaxDataSize]⟩

def rejectedMessage : List UInt8 :=
  fix41Args.beginString ++ ascii ['5'] ++ 1 :: ascii ['3', '5', '=', '0'] ++
    1 :: ascii ['1', '0', '=', '0', '0', '0'] ++ [1]

def rejectedEntry : FoxtrotEntry := ⟨rejectedMessage, by decide⟩

theorem splitEntries_cut_independent_rejected :
    streamOf [rejectedEntry] = streamOf (oneByteEntries rejectedMessage) ∧
      SameParse (splitEntries fix41Args (.initial 0) [rejectedEntry]).1
        (splitEntries fix41Args (.initial 0)
          (oneByteEntries rejectedMessage)).1 :=
  have sameStream :
      streamOf [rejectedEntry] = streamOf (oneByteEntries rejectedMessage) := by
    decide
  ⟨sameStream,
    (splitEntries_cut_independent fix41Args 0 [] [rejectedEntry]
      (oneByteEntries rejectedMessage) sameStream).2⟩

/-- The count of bytes left of a handled message does depend on the cut. -/
theorem bytesLeftToCopy_cut_dependent :
    ∃ first second : List FoxtrotEntry, streamOf first = streamOf second ∧
      (splitEntries fix41Args (.initial 0) first).1.bytesLeftToCopy ≠
        (splitEntries fix41Args (.initial 0) second).1.bytesLeftToCopy := by
  refine ⟨[rejectedEntry], oneByteEntries rejectedMessage, by decide, ?_⟩
  decide +kernel

end Cuts

end MercuryFix
