import MercuryFix.DisruptorConsumer

/-!
# What is known of the entries of a ring buffer

A publisher that has written its entry leaves a note of what it has written, and the
notes are kept in the order in which the entries are committed.  With one entry
processor an entry holds what its note says until the entry processor has read it.
-/

namespace MercuryFix.Disruptor

variable {Content Note : Type} {config : Config} {ring next : Ring Content}
  {reader after : Reader Content} {Holds : Note → Content → Prop}
  {notes : Nat → Option Note} {committed : List Note}

/-- The entries hold what the notes say. -/
structure Tracked (config : Config) (ring : Ring Content)
    (reader : Reader Content) (Holds : Note → Content → Prop)
    (notes : Nat → Option Note) (committed : List Note) : Prop where
  consumed : Consumed config ring reader
  written : ∀ p note, notes p = some note →
    ∃ sequence, (ring.publishers p).held = some sequence ∧
      Holds note (ring.buffer (config.index sequence))
  count : committed.length = ring.maxReadCursor
  entries : ∀ index note, committed[index]? = some note → Holds note (ring.committed (index + 1))

namespace Tracked

theorem registered (zero : Content) (spot : 0 < config.spots) :
    Tracked config (Ring.registered zero) (.begin 0 1) Holds (fun _ => none) [] where
  consumed := Consumed.registered zero spot
  written := by simp
  count := rfl
  entries := by simp

theorem weaken {fewer : Nat → Option Note}
    (tracked : Tracked config ring reader Holds notes committed)
    (kept : ∀ p note, fewer p = some note → notes p = some note) :
    Tracked config ring reader Holds fewer committed :=
  { tracked with
    written := fun p note found => tracked.written p note (kept p note found) }

section Publishers

variable {p : Nat} {action : PublisherAction Content}

section

variable (tracked : Tracked config ring reader Holds notes committed)
include tracked

theorem turn (moves : PublisherMove config ring p action next) (acquires : action.Acquires) :
    Tracked config next reader Holds notes committed := by
  have consumed := tracked.consumed.publish moves
  cases moves with
  | write => exact acquires.elim
  | commit => exact acquires.elim
  | @turn _ slowest writeCursor after _ turns =>
    refine ⟨consumed, ?_, tracked.count, tracked.entries⟩
    intro q note found
    obtain ⟨sequence, held, holds⟩ := tracked.written q note found
    refine ⟨sequence, ?_, holds⟩
    simp only [Ring.setPublisher_publishers, Function.update_apply]
    split_ifs with same
    · exact turns.held sequence (same ▸ held)
    · exact held

theorem write {sequence : Nat} {content : Content} {note : Note}
    (holding : ring.publishers p = .holding sequence) (holds : Holds note content) :
    Tracked config (ring.setEntry config sequence content) reader Holds
      (Function.update notes p (some note)) committed := by
  have moves : PublisherMove config ring p (.write content)
      (ring.setEntry config sequence content) :=
    .write holding
  refine ⟨tracked.consumed.publish moves, ?_, tracked.count, tracked.entries⟩
  intro q other found
  rw [Function.update_apply] at found
  split_ifs at found with same
  · cases found
    subst same
    refine ⟨sequence, by rw [Ring.setEntry_publishers, holding]; rfl, ?_⟩
    rw [Ring.setEntry_buffer, Function.update_self]
    exact holds
  · obtain ⟨place, held, otherHolds⟩ := tracked.written q other found
    refine ⟨place, held, ?_⟩
    rw [tracked.consumed.held_entry same held moves]
    exact otherHolds

theorem commit {note : Note} (noted : notes p = some note)
    (moves : PublisherMove config ring p .commit next) :
    Tracked config next reader Holds (Function.update notes p none) (committed ++ [note]) := by
  have consumed := tracked.consumed.publish moves
  have count := tracked.count
  cases moves with
  | turn _ _ acquires => exact acquires.elim
  | @commit sequence adds =>
    have following := tracked.consumed.sound.adding p sequence adds
    refine ⟨consumed, ?_, ?_, ?_⟩
    · intro q other found
      rw [Function.update_apply] at found
      split_ifs at found with same
      obtain ⟨place, held, holds⟩ := tracked.written q other found
      refine ⟨place, ?_, holds⟩
      rwa [Ring.setPublisher_publishers, Function.update_of_ne same]
    · rw [List.length_append, count]
      rfl
    · intro index other found
      simp only [Ring.setPublisher_committed]
      rcases Nat.lt_or_ge index committed.length with earlier | last
      · rw [List.getElem?_append_left earlier] at found
        have apart : index + 1 ≠ sequence := by omega
        rw [Function.update_of_ne apart]
        exact tracked.entries index other found
      · -- The new entry holds what the publisher has written.
        rw [List.getElem?_append_right last] at found
        obtain ⟨here, same⟩ := List.getElem?_eq_some_iff.mp found
        rw [List.length_singleton] at here
        have index_eq : index + 1 = sequence := by omega
        have note_eq : other = note := by
          rw [← same]
          simp
        obtain ⟨place, held, holds⟩ := tracked.written p note noted
        rw [adds] at held
        cases held
        rw [index_eq, Function.update_self, note_eq]
        exact holds

end

end Publishers

section Processor

section

variable (tracked : Tracked config ring reader Holds notes committed)
include tracked

theorem process (consumed : Consumed config next after)
    (publishers : next.publishers = ring.publishers)
    (readable : next.maxReadCursor = ring.maxReadCursor)
    (unchanged : next.committed = ring.committed)
    (kept : ∀ p sequence, (ring.publishers p).held = some sequence →
      next.buffer (config.index sequence) =
        ring.buffer (config.index sequence)) :
    Tracked config next after Holds notes committed where
  consumed := consumed
  written := by
    intro p note found
    obtain ⟨sequence, held, holds⟩ := tracked.written p note found
    refine ⟨sequence, ?_, ?_⟩
    · rw [publishers]
      exact held
    · rw [kept p sequence held]
      exact holds
  count := by
    rw [readable]
    exact tracked.count
  entries := by
    rw [unchanged]
    exact tracked.entries

theorem setProcessor (consumed : Consumed config (ring.setProcessor 0 (.reading after)) after) :
    Tracked config (ring.setProcessor 0 (.reading after)) after Holds notes committed :=
  tracked.process consumed rfl rfl rfl fun _ _ _ => rfl

theorem overwrite (started : 1 < reader.next) (content : Content) :
    Tracked config (ring.overwritten config (reader.next - 1) content) reader
      Holds notes committed := by
  obtain ⟨-, consumed⟩ := tracked.consumed.overwrite started content
  apply tracked.process consumed rfl rfl rfl
  intro p sequence held
  have above := (tracked.consumed.sound.claimed p sequence (Publisher.claimed_of_held held)).1
  have bound := tracked.consumed.next_le
  have apart : config.index sequence ≠ config.index (reader.next - 1) :=
    tracked.consumed.held_index_ne held (by omega) (.inl started) (by omega)
  simp only [Ring.overwritten_buffer, Ring.setEntry_buffer]
  exact Function.update_of_ne apart _ _

theorem process_step {action : ProcessorAction Content}
    (steps : step config ring (.process 0 action) = some next) (stays : action ≠ .unregister) :
    ∃ after, Tracked config next after Holds notes committed := by
  have consumed := tracked.consumed
  have unfolded := steps
  simp only [step, processorStep, consumed.reading] at unfolded
  cases action with
  | look =>
    rcases Nat.lt_or_ge ring.maxReadCursor reader.next with idle | readable
    · cases (consumed.look_idle idle).symm.trans steps
      exact ⟨reader, tracked⟩
    · obtain ⟨looks, behind⟩ := consumed.look readable
      cases looks.symm.trans steps
      exact ⟨_, tracked.setProcessor behind⟩
  | limit =>
    obtain ⟨sighted, -⟩ := Option.ite_none_right_eq_some.mp unfolded
    obtain ⟨limits, behind⟩ := consumed.limit sighted
    cases limits.symm.trans steps
    exact ⟨_, tracked.setProcessor behind⟩
  | read =>
    obtain ⟨readable, -⟩ := Option.ite_none_right_eq_some.mp unfolded
    obtain ⟨reads, behind⟩ := consumed.read readable
    cases reads.symm.trans steps
    exact ⟨_, tracked.setProcessor behind⟩
  | overwrite content =>
    obtain ⟨started, -⟩ := Option.ite_none_right_eq_some.mp unfolded
    rw [consumed.start] at started
    cases (consumed.overwrite started content).1.symm.trans steps
    exact ⟨reader, tracked.overwrite started content⟩
  | release sequence =>
    obtain ⟨cursor, present, -⟩ := consumed.cursor
    rw [readerStep, consumed.spot, present] at unfolded
    obtain ⟨⟨grows, before⟩, -⟩ := Option.ite_none_right_eq_some.mp unfolded
    obtain ⟨releases, behind⟩ := consumed.release present grows before
    cases releases.symm.trans steps
    exact ⟨reader, tracked.process behind rfl rfl rfl fun _ _ _ => rfl⟩
  | unregister => exact (stays rfl).elim
  | load | swap | check | store => cases unfolded

theorem next_note (readable : reader.next ≤ ring.maxReadCursor) :
    ∃ note, committed[reader.next - 1]? = some note ∧
      Holds note (ring.buffer (config.index reader.next)) := by
  have positive := tracked.consumed.next_pos
  have inside : reader.next - 1 < committed.length := by
    rw [tracked.count]
    omega
  have found := List.getElem?_eq_getElem inside
  refine ⟨_, found, ?_⟩
  rw [tracked.consumed.next_entry readable]
  have holds := tracked.entries _ _ found
  rwa [Nat.sub_add_cancel positive] at holds

end

end Processor

end Tracked

end MercuryFix.Disruptor
