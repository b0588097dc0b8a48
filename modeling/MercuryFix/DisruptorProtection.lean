import MercuryFix.DisruptorInvariant

/-!
# What a registered cursor protects

A spot is shielded when no publisher has been let through that is a whole
round ahead of its cursor, and no scan that has passed the spot can still let
one through.  The second half is needed because a scan reads the cursors one
after the other.
-/

namespace MercuryFix

namespace Disruptor

variable {Content : Type} {config : Config} {ring next : Ring Content}

/-- No publisher can get the place of entry `start`, or of a later one, for an
entry a round behind it, without seeing spot `n` again. -/
structure Clear (config : Config) (ring : Ring Content) (n start : Nat) :
    Prop where
  window : ring.maxReadCursor < start + config.capacity
  passed : ∀ p sequence, (ring.publishers p).passed = some sequence →
    sequence < start + config.capacity
  scans : ∀ p blocking incur k slowestReader,
    ring.publishers p = .scanning blocking incur k slowestReader → n < k →
    (∃ slowest, slowestReader = some slowest ∧ slowest ≤ start) ∨ incur < start + config.capacity

def Shielded (config : Config) (ring : Ring Content) (n : Nat) : Prop :=
  ∀ cursor, ring.entryProcessorCursors n = some cursor → Clear config ring n (protectedFrom cursor)

theorem protectedFrom_pos (cursor : Nat) : 1 ≤ protectedFrom cursor := le_max_right cursor 1

theorem le_protectedFrom (cursor : Nat) : cursor ≤ protectedFrom cursor := le_max_left cursor 1

theorem Clear.mono {n start later : Nat} (clear : Clear config ring n start)
    (grows : start ≤ later) : Clear config ring n later where
  window := by
    have window := clear.window
    omega
  passed := by
    intro p sequence passes
    have bound := clear.passed p sequence passes
    omega
  scans := by
    intro p blocking incur k slowestReader scans behind
    rcases clear.scans p blocking incur k slowestReader scans behind with
      ⟨slowest, same, bound⟩ | bound
    · exact .inl ⟨slowest, same, by omega⟩
    · exact .inr (by omega)

theorem Shielded.fresh {n cursor sequence : Nat} (shielded : Shielded config ring n)
    (present : ring.entryProcessorCursors n = some cursor)
    (protects : protectedFrom cursor ≤ sequence) :
    Fresh config ring sequence := by
  have clear := (shielded cursor present).mono protects
  refine ⟨clear.window, fun p other holds => ?_⟩
  exact clear.passed p other (Publisher.passed_of_held holds)

section Scans

theorem minCursor_some_left (slowest : Nat) (cursor : Option Nat) :
    ∃ least, minCursor (some slowest) cursor = some least ∧ least ≤ slowest := by
  cases cursor with
  | none => exact ⟨slowest, rfl, le_rfl⟩
  | some sequence =>
    rw [minCursor]
    split
    · exact ⟨sequence, rfl, by omega⟩
    · exact ⟨slowest, rfl, le_rfl⟩

theorem minCursor_some_right (slowestReader : Option Nat) (sequence : Nat) :
    ∃ least, minCursor slowestReader (some sequence) = some least ∧ least ≤ sequence := by
  cases slowestReader with
  | none => exact ⟨sequence, rfl, le_rfl⟩
  | some slowest =>
    rw [minCursor]
    split
    · exact ⟨sequence, rfl, le_rfl⟩
    · exact ⟨slowest, rfl, by omega⟩

theorem lt_of_mayWrite {incur slowest : Nat} (may : mayWrite config incur slowest) :
    incur < slowest + config.capacity := by
  have bounds : slowest ≤ incur ∧ incur - slowest ≤ config.reducedSize := of_decide_eq_true may
  have reduced : config.reducedSize = config.capacity - 1 := rfl
  have positive := config.capacity_pos
  omega

end Scans

section Steps

variable {n : Nat}

section

variable (sound : Sound config ring)
include sound

theorem Clear.turn {p cursor slowest writeCursor : Nat} {after : Publisher}
    (present : ring.entryProcessorCursors n = some cursor)
    (clear : Clear config ring n (protectedFrom cursor))
    (turns : Turn config ring (ring.publishers p) writeCursor after) :
    Clear config ({ ring with
      slowestEntryProcessor := slowest
      writeCursor := writeCursor }.setPublisher p after) n
      (protectedFrom cursor) := by
  have spot : n < config.spots := sound.spots n (by simp [present])
  refine ⟨clear.window, ?_, ?_⟩
  · intro q sequence passes
    simp only [Ring.setPublisher_publishers, Function.update_apply] at passes
    split_ifs at passes with same
    · rcases turns.passed sequence passes with old |
        ⟨blocking, k, slowestReader, scans, complete, may⟩
      · exact clear.passed p sequence old
      · -- The scan is complete, so it has passed spot `n`.
        rcases clear.scans p _ _ _ _ scans (by omega) with
          ⟨least, rfl, bound⟩ | bound
        · have granted : sequence < least + config.capacity := lt_of_mayWrite may
          omega
        · exact bound
    · exact clear.passed q sequence passes
  · intro q blocking incur k slowestReader scans behind
    simp only [Ring.setPublisher_publishers, Function.update_apply] at scans
    split_ifs at scans with same
    · rcases turns.scans _ _ _ _ scans with rfl |
        ⟨j, slowestBefore, rfl, before, rfl⟩
      · omega
      · rcases Nat.lt_succ_iff_lt_or_eq.mp behind with earlier | rfl
        · rcases clear.scans p _ _ _ _ before earlier with
            ⟨seen, rfl, bound⟩ | bound
          · obtain ⟨least, result, smaller⟩ :=
              minCursor_some_left seen (ring.entryProcessorCursors j)
            exact .inl ⟨least, result, by omega⟩
          · exact .inr bound
        · -- The step reads spot `n` itself.
          obtain ⟨least, result, smaller⟩ := minCursor_some_right slowestBefore cursor
          rw [present]
          exact .inl ⟨least, result, smaller.trans (le_protectedFrom cursor)⟩
    · exact clear.scans q _ _ _ _ scans behind

theorem Clear.commit {p cursor sequence : Nat} (clear : Clear config ring n (protectedFrom cursor))
    (adds : ring.publishers p = .adding sequence) :
    Clear config ({ ring with
      maxReadCursor := ring.maxReadCursor + 1
      committed := Function.update ring.committed sequence (ring.buffer (config.index sequence))
      contents := Function.update ring.contents sequence
        (ring.buffer (config.index sequence)) }.setPublisher p .idle) n
      (protectedFrom cursor) := by
  refine ⟨?_, ?_, ?_⟩
  · have bound := clear.passed p sequence (by rw [adds]; rfl)
    have following := sound.adding p sequence adds
    simp only [Ring.setPublisher_maxReadCursor]
    omega
  · intro q other passes
    simp only [Ring.setPublisher_publishers, Function.update_apply] at passes
    split_ifs at passes
    · cases passes
    · exact clear.passed q other passes
  · intro q blocking incur k slowestReader scans behind
    simp only [Ring.setPublisher_publishers, Function.update_apply] at scans
    split_ifs at scans
    exact clear.scans q _ _ _ _ scans behind

theorem Shielded.publish {p : Nat} {action : PublisherAction Content}
    (shielded : Shielded config ring n) (moves : PublisherMove config ring p action next) :
    Shielded config next n := by
  intro cursor present
  cases moves with
  | turn slowest writeCursor acquires turns =>
    exact (shielded cursor present).turn sound present turns
  | write holds =>
    obtain ⟨window, passed, scans⟩ := shielded cursor present
    exact ⟨window, passed, scans⟩
  | commit adds => exact (shielded cursor present).commit sound adds

theorem Shielded.process {q : Nat} {action : ProcessorAction Content}
    (shielded : Shielded config ring n) (moves : ProcessorMove config ring q action next)
    (safe : ∀ slowest, ring.processors q = .swapping n slowest →
      ring.entryProcessorCursors n = none →
      action = .swap false → Clear config ring n (protectedFrom slowest)) :
    Shielded config next n := by
  -- Publishers and the maximum of the readable entries stay as they are.
  have keep {cursor : Nat} (same : next.maxReadCursor = ring.maxReadCursor ∧
        next.publishers = ring.publishers)
      (clear : Clear config ring n (protectedFrom cursor)) :
      Clear config next n (protectedFrom cursor) := by
    obtain ⟨window, passed, scans⟩ := clear
    exact ⟨same.1 ▸ window, same.2 ▸ passed, same.2 ▸ scans⟩
  intro cursor present
  cases moves with
  | passes | checks | begins | waits | reads | overwrites =>
    exact keep ⟨rfl, rfl⟩ (shielded cursor present)
  | @registers m slowest swapping spot vacant =>
    apply keep ⟨rfl, rfl⟩
    simp only [Ring.setProcessor_entryProcessorCursors,
      Ring.setCursor_entryProcessorCursors, Function.update_apply] at present
    split_ifs at present with same
    · cases present
      subst same
      exact safe _ swapping vacant rfl
    · exact shielded cursor present
  | @stores m storing =>
    apply keep ⟨rfl, rfl⟩
    simp only [Ring.setProcessor_entryProcessorCursors,
      Ring.setCursor_entryProcessorCursors, Function.update_apply] at present
    split_ifs at present with same
    · cases present
      subst same
      have zero : ring.entryProcessorCursors n = some 0 := by
        have processorOk := sound.processors q
        rwa [storing] at processorOk
      exact shielded 0 zero
    · exact shielded cursor present
  | @releases reader before sequence reading cursorAt grows readBefore =>
    apply keep ⟨rfl, rfl⟩
    simp only [Ring.setCursor_entryProcessorCursors, Function.update_apply] at present
    split_ifs at present with same
    · cases present
      subst same
      exact (shielded before cursorAt).mono grows
    · exact shielded cursor present
  | @unregisters reader reading =>
    apply keep ⟨rfl, rfl⟩
    simp only [Ring.setProcessor_entryProcessorCursors,
      Ring.setCursor_entryProcessorCursors, Function.update_apply] at present
    split_ifs at present
    exact shielded cursor present

theorem Shielded.step {action : Action Content} (shielded : Shielded config ring n)
    (steps : step config ring action = some next)
    (safe : ∀ q slowest, action = .process q (.swap false) →
      ring.processors q = .swapping n slowest →
      ring.entryProcessorCursors n = none →
      Clear config ring n (protectedFrom slowest)) :
    Shielded config next n := by
  cases action with
  | publish p action =>
    exact shielded.publish sound (publisherMove_of_step steps)
  | process q action =>
    apply shielded.process sound (processorMove_of_step steps)
    rintro slowest swapping vacant rfl
    exact safe q slowest rfl swapping vacant

end

end Steps

theorem Sound.read_content {q : Nat} {reader : Reader Content} (sound : Sound config ring)
    (reading : ring.processors q = .reading reader) (shielded : Shielded config ring reader.spot)
    (readable : reader.next ≤ ring.maxReadCursor) :
    ring.buffer (config.index reader.next) = ring.contents reader.next := by
  obtain ⟨⟨cursor, present, bound⟩, positive, ordered, -, -⟩ := sound.readerOk reading
  apply sound.entries reader.next (by omega) readable
  exact shielded.fresh present (by omega)

end Disruptor

end MercuryFix
