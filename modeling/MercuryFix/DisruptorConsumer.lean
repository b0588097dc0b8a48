import MercuryFix.DisruptorProtection

/-!
# A ring buffer with one entry processor

The queues of the pusher and the queues that `pop` and `session_pop` serve
have one entry processor each, which registers before the first publication
and may overwrite entries that it has read.
-/

namespace MercuryFix

namespace Disruptor

open TransitionSystem

variable {Content : Type} {config : Config} {ring next : Ring Content}
  {reader : Reader Content}

def Ring.registered (zero : Content) : Ring Content :=
  ((Ring.init zero).setCursor 0 (some 1)).setProcessor 0 (.reading (.begin 0 1))

theorem run_registration (zero : Content) (spot : 0 < config.spots) :
    run (step config) (Ring.init zero) [.process 0 .load,
      .process 0 (.swap false), .process 0 .check, .process 0 .store] =
        some (Ring.registered zero) := by
  simp [run, step, processorStep, Ring.init, Ring.registered,
    Ring.setProcessor, Ring.setCursor, spot]

def Reader.advance (reader : Reader Content) (content : Content) :
    Reader Content :=
  { reader with
    next := reader.next + 1
    history := reader.history ++ [(reader.next, content)] }

@[simps]
def Ring.overwritten (config : Config) (ring : Ring Content) (sequence : Nat)
    (content : Content) : Ring Content :=
  { ring.setEntry config sequence content with
    contents := Function.update ring.contents sequence content }

/-- What holds while entry processor 0 is the only one.  It has changed no
entry that it has not read. -/
structure Consumed (config : Config) (ring : Ring Content) (reader : Reader Content) : Prop where
  sound : Sound config ring
  shielded : Shielded config ring 0
  reading : ring.processors 0 = .reading reader
  spot : reader.spot = 0
  start : reader.start = 1
  clean : ∀ sequence, reader.next ≤ sequence →
    sequence ≤ ring.maxReadCursor →
    ring.contents sequence = ring.committed sequence

theorem Consumed.registered (zero : Content) (spot : 0 < config.spots) :
    Consumed config (Ring.registered zero) (.begin 0 1) where
  sound := by
    apply (Sound.init zero).process_update (.inr ⟨rfl, spot⟩) (.inl rfl)
    refine ⟨⟨1, ?_, .inl ?_⟩, le_rfl, le_rfl, Nat.zero_le _, .inl le_rfl⟩
    · simp [Reader.begin]
    · simp [protectedFrom, Reader.begin]
  shielded := by
    intro cursor present
    have positive := protectedFrom_pos cursor
    refine ⟨?_, ?_, ?_⟩
    · simp only [Ring.registered, Ring.init, Ring.setProcessor_maxReadCursor,
        Ring.setCursor_maxReadCursor]
      omega
    · simp [Ring.registered, Ring.init, Publisher.passed]
    · simp [Ring.registered, Ring.init]
  reading := by simp [Ring.registered]
  spot := rfl
  start := rfl
  clean := fun _ _ _ => rfl

namespace Consumed

section

variable (consumed : Consumed config ring reader)
include consumed

theorem readerOk : ReaderOk ring reader := consumed.sound.readerOk consumed.reading

theorem next_pos : 1 ≤ reader.next := by
  have ordered := consumed.readerOk.ordered
  rwa [consumed.start] at ordered

theorem next_le : reader.next ≤ ring.maxReadCursor + 1 := by
  have available := consumed.readerOk.available
  rw [consumed.start] at available
  omega

theorem cursor : ∃ cursor, ring.entryProcessorCursors 0 = some cursor ∧
      protectedFrom cursor ≤ reader.next ∧
      (1 < reader.next → protectedFrom cursor < reader.next) := by
  obtain ⟨cursor, present, bound⟩ := consumed.readerOk.cursor
  rw [consumed.spot] at present
  rw [consumed.start] at bound
  have positive := consumed.next_pos
  exact ⟨cursor, present, by omega, by omega⟩

theorem fresh_next : Fresh config ring reader.next := by
  obtain ⟨cursor, present, bound, -⟩ := consumed.cursor
  exact consumed.shielded.fresh present bound

theorem fresh_previous (started : 1 < reader.next) : Fresh config ring (reader.next - 1) := by
  obtain ⟨cursor, present, -, bound⟩ := consumed.cursor
  have strict := bound started
  exact consumed.shielded.fresh present (by omega)

theorem next_entry (readable : reader.next ≤ ring.maxReadCursor) :
    ring.buffer (config.index reader.next) = ring.committed reader.next := by
  rw [consumed.sound.entries reader.next consumed.next_pos readable consumed.fresh_next]
  exact consumed.clean reader.next le_rfl readable

theorem entry {cursor sequence : Nat} (present : ring.entryProcessorCursors 0 = some cursor)
    (lower : protectedFrom cursor ≤ sequence) (readable : sequence ≤ ring.maxReadCursor) :
    ring.buffer (config.index sequence) = ring.contents sequence := by
  have positive := protectedFrom_pos cursor
  exact consumed.sound.entries sequence (by omega) readable (consumed.shielded.fresh present lower)

theorem held_index_ne {p sequence other : Nat} (holds : (ring.publishers p).held = some sequence)
    (lower : reader.next ≤ other + 1) (positive : 1 < reader.next ∨ 1 ≤ other)
    (before : other < sequence) :
    config.index sequence ≠ config.index other := by
  obtain ⟨cursor, present, bound, strict⟩ := consumed.cursor
  have near := (consumed.shielded.fresh present (le_refl _)).2 p sequence holds
  apply config.index_ne before
  omega

theorem held_distinct {p q first second : Nat} (different : p ≠ q)
    (holdsFirst : (ring.publishers p).held = some first)
    (holdsSecond : (ring.publishers q).held = some second) :
    config.index first ≠ config.index second := by
  have claimsFirst := Publisher.claimed_of_held holdsFirst
  have claimsSecond := Publisher.claimed_of_held holdsSecond
  have firstAbove := (consumed.sound.claimed p first claimsFirst).1
  have secondAbove := (consumed.sound.claimed q second claimsSecond).1
  have bound := consumed.next_le
  rcases lt_trichotomy first second with before | same | behind
  · exact (consumed.held_index_ne holdsSecond (by omega) (by omega) before).symm
  · subst same
    exact (different (consumed.sound.distinct p q first claimsFirst claimsSecond)).elim
  · exact consumed.held_index_ne holdsFirst (by omega) (by omega) behind

end

section Publishers

variable {p : Nat} {action : PublisherAction Content}

theorem publish (consumed : Consumed config ring reader)
    (moves : PublisherMove config ring p action next) :
    Consumed config next reader where
  sound := consumed.sound.publish moves
  shielded := consumed.shielded.publish consumed.sound moves
  reading := by
    have reading := consumed.reading
    cases moves <;> exact reading
  spot := consumed.spot
  start := consumed.start
  clean := by
    intro sequence lower readable
    cases moves with
    | turn | write => exact consumed.clean sequence lower readable
    | @commit committed adds =>
      have following := consumed.sound.adding p committed adds
      simp only [Ring.setPublisher_maxReadCursor] at readable
      simp only [Ring.setPublisher_contents, Ring.setPublisher_committed, Function.update_apply]
      split_ifs
      · rfl
      · exact consumed.clean sequence lower (by omega)

theorem held_entry {q sequence : Nat} (consumed : Consumed config ring reader) (other : q ≠ p)
    (holds : (ring.publishers q).held = some sequence)
    (moves : PublisherMove config ring p action next) :
    next.buffer (config.index sequence) =
      ring.buffer (config.index sequence) := by
  cases moves with
  | turn | commit => rfl
  | @write written content writes =>
    have held : (ring.publishers p).held = some written := by
      rw [writes]
      rfl
    exact Function.update_of_ne (consumed.held_distinct other holds held) _ _

end Publishers

section Reader

section

variable (consumed : Consumed config ring reader)
include consumed

theorem process {action : ProcessorAction Content} {after : Reader Content}
    (steps : step config ring (.process 0 action) = some next)
    (careful : Careful config ring (.process 0 action))
    (reading : next.processors 0 = .reading after) (spot : after.spot = reader.spot)
    (start : after.start = reader.start)
    (clean : ∀ sequence, after.next ≤ sequence → sequence ≤ next.maxReadCursor →
      next.contents sequence = next.committed sequence) :
    Consumed config next after where
  sound := consumed.sound.step careful steps
  shielded := by
    apply consumed.shielded.step consumed.sound steps
    rintro q slowest ⟨rfl, -⟩ swapping
    cases consumed.reading.symm.trans swapping
  reading := reading
  spot := spot.trans consumed.spot
  start := start.trans consumed.start
  clean := clean

theorem look (readable : reader.next ≤ ring.maxReadCursor) : step config ring (.process 0 .look) =
        some (ring.setProcessor 0 (.reading { reader with sighted := true })) ∧
      Consumed config (ring.setProcessor 0 (.reading { reader with sighted := true }))
        { reader with sighted := true } := by
  have steps : step config ring (.process 0 .look) =
      some (ring.setProcessor 0 (.reading { reader with sighted := true })) := by
    simp only [step, processorStep, consumed.reading, readerStep, readable, ↓reduceIte]
  exact ⟨steps, consumed.process steps (by simp [Careful]) (by simp) rfl rfl consumed.clean⟩

theorem look_idle (idle : ring.maxReadCursor < reader.next) :
    step config ring (.process 0 .look) = some ring := by
  simp only [step, processorStep, consumed.reading, readerStep, if_neg (not_le.mpr idle)]

theorem limit (sighted : reader.sighted = true) : step config ring (.process 0 .limit) =
        some (ring.setProcessor 0 (.reading
          { reader with sighted := false, limit := ring.maxReadCursor })) ∧
      Consumed config (ring.setProcessor 0 (.reading
          { reader with sighted := false, limit := ring.maxReadCursor }))
        { reader with sighted := false, limit := ring.maxReadCursor } := by
  have steps : step config ring (.process 0 .limit) = some (ring.setProcessor 0 (.reading
        { reader with sighted := false, limit := ring.maxReadCursor })) := by
    simp only [step, processorStep, consumed.reading, readerStep, sighted, ↓reduceIte]
  exact ⟨steps, consumed.process steps (by simp [Careful]) (by simp) rfl rfl consumed.clean⟩

theorem read (readable : reader.next ≤ reader.limit) : step config ring (.process 0 .read) =
        some (ring.setProcessor 0 (.reading (reader.advance (ring.committed reader.next)))) ∧
      Consumed config (ring.setProcessor 0 (.reading (reader.advance (ring.committed reader.next))))
        (reader.advance (ring.committed reader.next)) := by
  have bound := consumed.readerOk.limit
  have content := consumed.next_entry (readable.trans bound)
  have steps : step config ring (.process 0 .read) =
      some (ring.setProcessor 0 (.reading (reader.advance (ring.committed reader.next)))) := by
    simp only [step, processorStep, consumed.reading, readerStep, readable,
      ↓reduceIte, content, Reader.advance]
  refine ⟨steps, consumed.process steps (by simp [Careful]) (by simp) rfl rfl
    fun sequence lower upper => ?_⟩
  exact consumed.clean sequence (Nat.le_of_succ_le lower) upper

theorem overwrite (started : 1 < reader.next) (content : Content) :
    step config ring (.process 0 (.overwrite content)) =
        some (ring.overwritten config (reader.next - 1) content) ∧
      Consumed config (ring.overwritten config (reader.next - 1) content)
        reader := by
  have begun : reader.start < reader.next := by rwa [consumed.start]
  have steps : step config ring (.process 0 (.overwrite content)) =
      some (ring.overwritten config (reader.next - 1) content) := by
    simp only [step, processorStep, consumed.reading, readerStep, begun,
      ↓reduceIte, Ring.overwritten]
  refine ⟨steps, consumed.process steps ?_ consumed.reading rfl rfl ?_⟩
  · intro standing reading
    cases consumed.reading.symm.trans reading
    exact consumed.fresh_previous started
  · intro sequence lower upper
    have apart : sequence ≠ reader.next - 1 := by omega
    rw [Ring.overwritten_contents, Function.update_of_ne apart]
    exact consumed.clean sequence lower upper

theorem release {cursor sequence : Nat} (present : ring.entryProcessorCursors 0 = some cursor)
    (grows : protectedFrom cursor ≤ protectedFrom sequence) (readBefore : sequence < reader.next) :
    step config ring (.process 0 (.release sequence)) = some (ring.setCursor 0 (some sequence)) ∧
      Consumed config (ring.setCursor 0 (some sequence)) reader := by
  have steps : step config ring (.process 0 (.release sequence)) =
      some (ring.setCursor 0 (some sequence)) := by
    simp only [step, processorStep, consumed.reading, readerStep,
      consumed.spot, present, grows, readBefore, and_self, ↓reduceIte]
  exact ⟨steps, consumed.process steps (by simp [Careful]) consumed.reading rfl rfl consumed.clean⟩

end

end Reader

end Consumed

end Disruptor

end MercuryFix
