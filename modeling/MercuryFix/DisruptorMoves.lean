import MercuryFix.Disruptor

/-!
# What a step of the ring buffer can do

Each step is taken apart once.  A publisher takes a turn, which touches only
the write cursor and its own state, or writes its entry, or commits it.  The
steps of an entry processor are listed one by one.
-/

namespace MercuryFix

namespace Disruptor

variable {Content : Type} {config : Config} {ring next : Ring Content}

def Publisher.claimed : Publisher → Option Nat
  | .scanning true incur _ _ => some incur
  | .holding sequence | .committing sequence | .adding sequence => some sequence
  | _ => none

def Publisher.passed : Publisher → Option Nat
  | .claiming sequence | .holding sequence | .committing sequence
  | .adding sequence => some sequence
  | _ => none

def Publisher.held : Publisher → Option Nat
  | .holding sequence | .committing sequence | .adding sequence => some sequence
  | _ => none

theorem Publisher.claimed_of_held {state : Publisher} {sequence : Nat}
    (holds : state.held = some sequence) : state.claimed = some sequence := by
  cases state <;> first | exact holds | cases holds

theorem Publisher.passed_of_held {state : Publisher} {sequence : Nat}
    (holds : state.held = some sequence) : state.passed = some sequence := by
  cases state <;> first | exact holds | cases holds

def Processor.owned : Processor Content → Option Nat
  | .checking n | .storing n => some n
  | .reading reader => some reader.spot
  | _ => none

section Publishers

/-- What changes for a publisher that moves from one state to another and
leaves `writeCursor` behind. -/
structure Turn (config : Config) (ring : Ring Content) (before : Publisher)
    (writeCursor : Nat) (after : Publisher) : Prop where
  grows : ring.writeCursor ≤ writeCursor
  claimed : ∀ sequence, after.claimed = some sequence →
    before.claimed = some sequence ∨ sequence = ring.writeCursor + 1 ∧ sequence = writeCursor
  held : ∀ sequence, before.held = some sequence → after.held = some sequence
  adding : ∀ sequence, after = .adding sequence → sequence = ring.maxReadCursor + 1
  passed : ∀ sequence, after.passed = some sequence →
    before.passed = some sequence ∨ ∃ blocking k slowestReader,
      before = .scanning blocking sequence k slowestReader ∧
        config.spots ≤ k ∧
        mayWrite config sequence (scanned config sequence slowestReader)
  scans : ∀ blocking incur k slowestReader,
    after = .scanning blocking incur k slowestReader →
    k = 0 ∨ ∃ j slowestBefore, k = j + 1 ∧
      before = .scanning blocking incur j slowestBefore ∧
      slowestReader = minCursor slowestBefore (ring.entryProcessorCursors j)

def PublisherAction.Acquires : PublisherAction Content → Prop
  | .write _ | .commit => False
  | _ => True

inductive PublisherMove (config : Config) (ring : Ring Content) (p : Nat) :
    PublisherAction Content → Ring Content → Prop
  | turn {action : PublisherAction Content} (slowest writeCursor : Nat)
      {after : Publisher} (acquires : action.Acquires)
      (turns : Turn config ring (ring.publishers p) writeCursor after) :
      PublisherMove config ring p action
        ({ ring with
          slowestEntryProcessor := slowest
          writeCursor := writeCursor }.setPublisher p after)
  | write {sequence : Nat} {content : Content}
      (holds : ring.publishers p = .holding sequence) :
      PublisherMove config ring p (.write content)
        (ring.setEntry config sequence content)
  | commit {sequence : Nat} (adds : ring.publishers p = .adding sequence) :
      PublisherMove config ring p .commit ({ ring with
        maxReadCursor := ring.maxReadCursor + 1
        committed := Function.update ring.committed sequence
          (ring.buffer (config.index sequence))
        contents := Function.update ring.contents sequence
          (ring.buffer (config.index sequence)) }.setPublisher p .idle)

theorem Turn.scan {blocking : Bool} {incur n : Nat} {slowestReader : Option Nat} :
    Turn config ring (.scanning blocking incur n slowestReader)
      ring.writeCursor (.scanning blocking incur (n + 1)
        (minCursor slowestReader (ring.entryProcessorCursors n))) where
  grows := le_rfl
  claimed := by
    intro sequence claims
    left
    cases blocking with
    | false => simp [Publisher.claimed] at claims
    | true => simpa [Publisher.claimed] using claims
  held := by simp [Publisher.held]
  adding := by simp
  passed := by simp [Publisher.passed]
  scans := by
    rintro _ _ _ _ ⟨rfl, rfl, rfl, rfl⟩
    exact .inr ⟨n, slowestReader, rfl, rfl, rfl⟩

theorem Turn.decide {blocking : Bool} {incur n : Nat}
    {slowestReader : Option Nat} (complete : config.spots ≤ n) :
    Turn config ring (.scanning blocking incur n slowestReader) ring.writeCursor
      (if mayWrite config incur (scanned config incur slowestReader) then
        if blocking then .holding incur else .claiming incur
      else if blocking then .scanning true incur 0 none else .idle) where
  grows := le_rfl
  claimed := by
    intro sequence claims
    left
    cases blocking <;> split at claims <;> simp_all [Publisher.claimed]
  held := by simp [Publisher.held]
  adding := by
    intro sequence adds
    cases blocking <;> split at adds <;> simp at adds
  passed := by
    intro sequence passes
    split at passes
    case isTrue may =>
      have same : incur = sequence := by
        cases blocking <;> simpa [Publisher.passed] using passes
      subst same
      exact .inr ⟨blocking, n, slowestReader, rfl, complete, may⟩
    case isFalse =>
      cases blocking <;> simp [Publisher.passed] at passes
  scans := by
    intro _ _ k _ scans
    left
    cases blocking <;> split at scans <;> simp at scans
    exact scans.2.2.1.symm

theorem Turn.await {before : Publisher} {sequence : Nat} (holds : before.held = some sequence) :
    Turn config ring before ring.writeCursor
      (if ring.maxReadCursor + 1 = sequence then .adding sequence
        else .committing sequence) where
  grows := le_rfl
  claimed := by
    intro other same
    left
    rw [Publisher.claimed_of_held holds]
    split at same <;> exact same
  held := by
    intro other same
    rw [← same, holds]
    split <;> rfl
  adding := by
    intro other adds
    split at adds <;> simp at adds
    omega
  passed := by
    intro other same
    left
    rw [Publisher.passed_of_held holds]
    split at same <;> exact same
  scans := by
    intro _ _ _ _ scans
    split at scans <;> simp at scans

theorem publisherMove_of_step {p : Nat} {action : PublisherAction Content}
    (steps : publisherStep config ring p action (ring.publishers p) =
      some next) : PublisherMove config ring p action next := by
  generalize state : ring.publishers p = before at steps
  unfold publisherStep at steps
  split at steps
  case h_1 =>
    cases steps
    exact .turn ring.slowestEntryProcessor _ trivial
      (state ▸ ⟨by omega, by simp [Publisher.claimed],
        by simp [Publisher.held], by simp, by simp [Publisher.passed], by simp⟩)
  case h_2 =>
    cases steps
    exact .turn ring.slowestEntryProcessor ring.writeCursor trivial
      (state ▸ ⟨le_rfl, by simp [Publisher.claimed],
        by simp [Publisher.held], by simp, by simp [Publisher.passed], by simp⟩)
  case h_3 blocking incur n slowestReader =>
    split at steps <;> cases steps
    case isTrue =>
      exact .turn ring.slowestEntryProcessor _ trivial (state ▸ Turn.scan)
    case isFalse full =>
      exact .turn _ _ trivial (state ▸ Turn.decide (not_lt.mp full))
  case h_4 incur =>
    split at steps <;> cases steps
    case isTrue exchanged =>
      refine .turn ring.slowestEntryProcessor _ trivial
        (state ▸ ⟨by omega, ?_, by simp [Publisher.held], by simp, ?_, by simp⟩)
      · intro sequence claims
        cases claims
        exact .inr ⟨exchanged.symm, rfl⟩
      · intro sequence passes
        exact .inl passes
    case isFalse =>
      exact .turn ring.slowestEntryProcessor ring.writeCursor trivial
        (state ▸ ⟨le_rfl, by simp [Publisher.claimed],
          by simp [Publisher.held], by simp, by simp [Publisher.passed],
          by simp⟩)
  case h_5 content sequence =>
    cases steps
    exact .write state
  case h_6 sequence =>
    cases steps
    exact .turn ring.slowestEntryProcessor _ trivial (by rw [state]; exact Turn.await rfl)
  case h_7 sequence =>
    cases steps
    exact .turn ring.slowestEntryProcessor _ trivial (by rw [state]; exact Turn.await rfl)
  case h_8 sequence =>
    cases steps
    exact .commit state
  case h_9 => cases steps

end Publishers

section Processors

/-- The steps of entry processor `q`.  `passes` stands for the steps of
`entry_processor_barrier_register` that take no spot. -/
inductive ProcessorMove (config : Config) (ring : Ring Content) (q : Nat) :
    ProcessorAction Content → Ring Content → Prop
  | passes {action : ProcessorAction Content} {after : Processor Content}
      (acts : action = .load ∨ ∃ spurious, action = .swap spurious)
      (before : (ring.processors q).owned = none) (free : after.owned = none)
      (loads : ∀ n slowest, after = .swapping n slowest →
        slowest = ring.slowestEntryProcessor) :
      ProcessorMove config ring q action (ring.setProcessor q after)
  | registers {n slowest : Nat}
      (swapping : ring.processors q = .swapping n slowest)
      (spot : n < config.spots)
      (vacant : ring.entryProcessorCursors n = none) :
      ProcessorMove config ring q (.swap false)
        ((ring.setCursor n (some slowest)).setProcessor q (.checking n))
  | checks {n : Nat} (checking : ring.processors q = .checking n)
      (cursor : ring.entryProcessorCursors n = some 0) :
      ProcessorMove config ring q .check (ring.setProcessor q (.storing n))
  | begins {n start : Nat} (checking : ring.processors q = .checking n)
      (cursor : ring.entryProcessorCursors n = some (start + 1)) :
      ProcessorMove config ring q .check
        (ring.setProcessor q (.reading (.begin n (start + 1))))
  | stores {n : Nat} (storing : ring.processors q = .storing n) :
      ProcessorMove config ring q .store
        ((ring.setCursor n (some 1)).setProcessor q (.reading (.begin n 1)))
  | waits {action : ProcessorAction Content} {reader : Reader Content}
      (limit : Nat) (sighted : Bool)
      (acts : action = .look ∨ action = .limit)
      (reading : ring.processors q = .reading reader)
      (bound : limit = reader.limit ∨ limit = ring.maxReadCursor) :
      ProcessorMove config ring q action (ring.setProcessor q
        (.reading { reader with limit := limit, sighted := sighted }))
  | reads {reader : Reader Content}
      (reading : ring.processors q = .reading reader)
      (readable : reader.next ≤ reader.limit) :
      ProcessorMove config ring q .read (ring.setProcessor q (.reading
        { reader with
          next := reader.next + 1
          history := reader.history ++
            [(reader.next, ring.buffer (config.index reader.next))] }))
  | overwrites {reader : Reader Content} {content : Content}
      (reading : ring.processors q = .reading reader)
      (started : reader.start < reader.next) :
      ProcessorMove config ring q (.overwrite content)
        { ring.setEntry config (reader.next - 1) content with
          contents :=
            Function.update ring.contents (reader.next - 1) content }
  | releases {reader : Reader Content} {cursor sequence : Nat}
      (reading : ring.processors q = .reading reader)
      (cursorAt : ring.entryProcessorCursors reader.spot = some cursor)
      (grows : protectedFrom cursor ≤ protectedFrom sequence)
      (readBefore : sequence < reader.next) :
      ProcessorMove config ring q (.release sequence)
        (ring.setCursor reader.spot (some sequence))
  | unregisters {reader : Reader Content}
      (reading : ring.processors q = .reading reader) :
      ProcessorMove config ring q .unregister
        ((ring.setCursor reader.spot none).setProcessor q .outside)

theorem processorMove_of_readerStep {q : Nat} {reader : Reader Content}
    {action : ProcessorAction Content} (reading : ring.processors q = .reading reader)
    (steps : readerStep config ring q reader action = some next) :
    ProcessorMove config ring q action next := by
  cases action <;> simp only [readerStep, reduceCtorEq] at steps
  case look =>
    split at steps <;> cases steps
    · exact .waits _ _ (.inl rfl) reading (.inl rfl)
    · -- The loop spins, or the call returns without an entry.
      have unchanged : ring.setProcessor q (.reading reader) = ring := by
        rw [Ring.setProcessor, ← reading, Function.update_eq_self]
      have move : ProcessorMove config ring q .look (ring.setProcessor q (.reading reader)) :=
        .waits reader.limit reader.sighted (.inl rfl) reading (.inl rfl)
      rwa [unchanged] at move
  case limit =>
    split at steps <;> cases steps
    exact .waits _ _ (.inr rfl) reading (.inr rfl)
  case read =>
    split at steps <;> cases steps
    exact .reads reading ‹_›
  case overwrite content =>
    split at steps <;> cases steps
    exact .overwrites reading ‹_›
  case release sequence =>
    split at steps
    · split at steps <;> cases steps
      rename_i cursor cursorAt bounds
      exact .releases reading cursorAt bounds.1 bounds.2
    · cases steps
  case unregister =>
    cases steps
    exact .unregisters reading

theorem processorMove_of_step {q : Nat} {action : ProcessorAction Content}
    (steps : processorStep config ring q action (ring.processors q) =
      some next) : ProcessorMove config ring q action next := by
  generalize state : ring.processors q = before at steps
  unfold processorStep at steps
  split at steps
  case h_1 =>
    cases steps
    exact .passes (.inl rfl) (by rw [state]; rfl) rfl (by simp)
  case h_2 =>
    cases steps
    exact .passes (.inl rfl) (by rw [state]; rfl) rfl (by simp)
  case h_3 spurious n slowest =>
    split at steps <;> cases steps
    case isTrue exchanged =>
      obtain ⟨rfl, spot, vacant⟩ := exchanged
      exact .registers state spot vacant
    case isFalse =>
      exact .passes (.inr ⟨spurious, rfl⟩) (by rw [state]; rfl) rfl (by simp)
  case h_4 n =>
    split at steps <;> cases steps
    case h_1 cursor => exact .checks state cursor
    case h_2 start positive cursor =>
      obtain ⟨below, rfl⟩ := Nat.exists_eq_succ_of_ne_zero positive
      exact .begins state cursor
  case h_5 n =>
    cases steps
    exact .stores state
  case h_6 reader => exact processorMove_of_readerStep state steps
  case h_7 => cases steps

end Processors

end Disruptor

end MercuryFix
