import MercuryFix.DisruptorReaders

/-!
# Entry processors that register before the first publication

Every such entry processor reads all committed entries, each of them once, in
order and as it was committed, however the steps of publishers and entry
processors interleave.
-/

namespace MercuryFix

namespace Disruptor

open TransitionSystem

variable {Content : Type} {config : Config} {ring next : Ring Content}

def Action.Preparation : Action Content → Prop
  | .publish _ _ => False
  | .process _ (.overwrite _) => False
  | .process _ _ => True

def Action.Operation : Action Content → Prop
  | .process _ .load => False
  | .process _ (.swap _) => False
  | .process _ (.overwrite _) => False
  | _ => True

variable {action : Action Content}

theorem Action.Preparation.leavesEntries (preparation : action.Preparation) :
    action.LeavesEntries := by
  unfold LeavesEntries
  split
  · exact preparation
  · trivial

theorem Action.Operation.leavesEntries (operation : action.Operation) : action.LeavesEntries := by
  unfold LeavesEntries
  split
  · exact operation
  · trivial

structure Unpublished (ring : Ring Content) : Prop where
  slowest : ring.slowestEntryProcessor = 0
  readable : ring.maxReadCursor = 0
  publishers : ∀ p, ring.publishers p = .idle
  swapping : ∀ q n slowest, ring.processors q = .swapping n slowest → slowest = 0

/-- Every entry processor is served and starts, if registered, with the first
entry. -/
structure Ready (config : Config) (ring : Ring Content) : Prop where
  sound : Sound config ring
  untouched : Untouched ring
  served : ∀ q, Served config ring q
  starts : ∀ q, (ring.processors q).owned = none ∨ StartsAt ring 1 (ring.processors q)

theorem Unpublished.init (zero : Content) : Unpublished (Ring.init zero) where
  slowest := rfl
  readable := rfl
  publishers := fun _ => rfl
  swapping := by simp [Ring.init]

theorem Ready.init (zero : Content) : Ready config (Ring.init zero) where
  sound := Sound.init zero
  untouched := rfl
  served := by
    intro q
    constructor <;> simp [Ring.init, Processor.owned]
  starts := fun _ => .inl rfl

theorem Unpublished.step (unpublished : Unpublished ring) (preparation : action.Preparation)
    (steps : step config ring action = some next) : Unpublished next := by
  cases action with
  | publish => exact preparation.elim
  | process q action =>
    have moves := processorMove_of_step steps
    have swapping (r n slowest : Nat)
        (stands : next.processors r = .swapping n slowest) : slowest = 0 := by
      rcases eq_or_ne r q with rfl | other
      · cases moves with
        | passes acts before free loads =>
          simp only [Ring.setProcessor_processors, Function.update_self] at stands
          rw [loads n slowest stands, unpublished.slowest]
        | overwrites standing | releases standing =>
          exact unpublished.swapping r n slowest stands
        | _ =>
          simp only [Ring.setProcessor_processors, Function.update_self] at stands
          cases stands
      · rw [moves.other_eq other] at stands
        exact unpublished.swapping r n slowest stands
    cases moves <;>
      exact ⟨unpublished.slowest, unpublished.readable, unpublished.publishers, swapping⟩

theorem Unpublished.clear (unpublished : Unpublished ring) (n start : Nat)
    (positive : 1 ≤ start) : Clear config ring n start where
  window := by
    rw [unpublished.readable]
    omega
  passed := by
    intro p sequence passes
    rw [unpublished.publishers p] at passes
    cases passes
  scans := by
    intro p _ _ _ _ scans
    rw [unpublished.publishers p] at scans
    cases scans

theorem Ready.step (ready : Ready config ring) (leaves : action.LeavesEntries)
    (steps : step config ring action = some next)
    (safe : ∀ q n slowest, action = .process q (.swap false) →
      ring.processors q = .swapping n slowest →
      slowest = 0 ∧ Clear config ring n 1) : Ready config next where
  sound := ready.sound.step leaves.careful steps
  untouched := ready.untouched.step leaves steps
  served := by
    intro q
    apply (ready.served q).step ready.sound ready.untouched steps
    intro n slowest registers swapping _
    obtain ⟨rfl, clear⟩ := safe q n slowest registers swapping
    exact clear
  starts := by
    intro q
    rcases ready.starts q with free | starts
    · cases action with
      | publish p action =>
        rw [(publisherMove_of_step steps).processors_eq]
        exact .inl free
      | process r action =>
        have moves := processorMove_of_step steps
        rcases eq_or_ne q r with rfl | other
        · cases moves with
          | passes acts before after =>
            left
            simpa using after
          | registers swapping spot vacant =>
            obtain ⟨rfl, -⟩ := safe q _ _ rfl swapping
            right
            simp [StartsAt, protectedFrom]
          | unregisters => exact .inl (by simp [Processor.owned])
          | waits limit sighted acts standing =>
            rw [standing] at free
            cases free
          | checks standing | begins standing | stores standing
          | reads standing | overwrites standing | releases standing =>
            rw [standing] at free
            cases free
        · rw [moves.other_eq other]
          exact .inl free
    · by_cases leaving : action = .process q .unregister
      · subst leaving
        left
        have moves := processorMove_of_step steps
        generalize arrival : ProcessorAction.unregister = last at moves
        cases moves with
        | unregisters => simp [Processor.owned]
        | passes acts =>
          obtain rfl | ⟨spurious, rfl⟩ := acts <;> cases arrival
        | waits limit sighted acts =>
          obtain rfl | rfl := acts <;> cases arrival
        | _ => cases arrival
      · exact .inr (starts.step ready.sound leaving steps)

theorem ready_of_run {zero : Content} {preparations operations : List (Action Content)}
    (prepares : ∀ action ∈ preparations, action.Preparation)
    (operates : ∀ action ∈ operations, action.Operation)
    (runs : run (step config) (Ring.init zero) (preparations ++ operations) =
      some ring) : Ready config ring := by
  obtain ⟨prepared, first, second⟩ := run_append_eq_some.mp runs
  have ready : Unpublished prepared ∧ Ready config prepared := by
    apply run_invariant_guarded (fun ring => Unpublished ring ∧ Ready config ring)
      (fun _ action => action.Preparation) _
      ⟨Unpublished.init zero, Ready.init zero⟩
      (guarded_of_forall fun action member _ => prepares action member) first
    rintro ring action next ⟨unpublished, ready⟩ preparation steps
    refine ⟨unpublished.step preparation steps, ready.step preparation.leavesEntries steps ?_⟩
    intro q n slowest _ swapping
    exact ⟨unpublished.swapping q n slowest swapping, unpublished.clear n 1 le_rfl⟩
  apply run_invariant_guarded (Ready config) (fun _ action => action.Operation) _
    ready.2 (guarded_of_forall fun action member _ => operates action member)
    second
  intro ring action next ready operation steps
  apply ready.step operation.leavesEntries steps
  rintro q n slowest rfl _
  exact operation.elim

section Progress

variable {q : Nat}

theorem reads_up_to_limit {reader : Reader Content} (count : Nat)
    (reading : ring.processors q = .reading reader)
    (remaining : reader.next + count = reader.limit + 1) :
    ∃ final caught, run (step config) ring (List.replicate count (.process q .read)) = some final ∧
      final.processors q = .reading caught ∧
      caught.next = reader.limit + 1 ∧
      final.maxReadCursor = ring.maxReadCursor ∧
      final.committed = ring.committed := by
  induction count generalizing ring reader with
  | zero => exact ⟨ring, reader, rfl, reading, remaining, rfl, rfl⟩
  | succ count induction =>
    have readable : reader.next ≤ reader.limit := by omega
    let entry := (reader.next, ring.buffer (config.index reader.next))
    let further : Reader Content := { reader with
        next := reader.next + 1
        history := reader.history ++ [entry] }
    have steps : step config ring (.process q .read) =
        some (ring.setProcessor q (.reading further)) := by
      simp only [step, processorStep, reading, readerStep, readable, ↓reduceIte]
      rfl
    have stays : (ring.setProcessor q (.reading further)).processors q = .reading further := by
      simp
    obtain ⟨final, caught, runs, stands, next, same⟩ := induction stays (by simp [further]; omega)
    refine ⟨final, caught, ?_, stands, next, same⟩
    rw [List.replicate_succ]
    exact run_cons_eq_some.mpr ⟨_, steps, runs⟩

theorem catches_up (config : Config) {reader : Reader Content}
    (reading : ring.processors q = .reading reader) (behind : reader.next ≤ ring.maxReadCursor) :
    ∃ final caught, run (step config) ring (.process q .look :: .process q .limit ::
          List.replicate (ring.maxReadCursor + 1 - reader.next) (.process q .read)) = some final ∧
      final.processors q = .reading caught ∧
      caught.next = ring.maxReadCursor + 1 ∧
      final.committed = ring.committed := by
  let sighted : Reader Content := { reader with sighted := true }
  let limited : Reader Content := { reader with sighted := false, limit := ring.maxReadCursor }
  have looks : step config ring (.process q .look) =
      some (ring.setProcessor q (.reading sighted)) := by
    simp only [step, processorStep, reading, readerStep, behind, ↓reduceIte]
    rfl
  have limits : step config (ring.setProcessor q (.reading sighted)) (.process q .limit) =
      some ((ring.setProcessor q (.reading sighted)).setProcessor q (.reading limited)) := by
    simp only [step, processorStep, Ring.setProcessor_processors,
      Function.update_self, readerStep, sighted, ↓reduceIte]
    rfl
  have stays : ((ring.setProcessor q (.reading sighted)).setProcessor q
      (.reading limited)).processors q = .reading limited := by
    simp
  obtain ⟨final, caught, runs, stands, next, -, same⟩ :=
    reads_up_to_limit (ring.maxReadCursor + 1 - reader.next) stays (by simp [limited]; omega)
  refine ⟨final, caught, ?_, stands, next, same⟩
  exact run_cons_eq_some.mpr ⟨_, looks, run_cons_eq_some.mpr ⟨_, limits, runs⟩⟩

end Progress

theorem Ready.history {q : Nat} {reader : Reader Content} (ready : Ready config ring)
    (reading : ring.processors q = .reading reader) :
    reader.history = committedFrom ring 1 reader.next ∧ reader.next ≤ ring.maxReadCursor + 1 := by
  have start : reader.start = 1 := by
    rcases ready.starts q with free | starts
    · rw [reading] at free
      cases free
    · rwa [reading] at starts
  have available := (ready.sound.readerOk reading).available
  have faithful := (ready.served q).faithful reader reading
  rw [Faithful, start] at faithful
  exact ⟨faithful, by omega⟩

/-- An entry processor that has registered before the first publication has
read the committed entries from the first one on, each of them once and as it
was committed.  No publisher holds the place of an entry that it has not
released, and it can read the rest of the committed entries by itself. -/
theorem processors_read_committed {zero : Content} {q : Nat}
    {preparations operations : List (Action Content)} {reader : Reader Content}
    (prepares : ∀ action ∈ preparations, action.Preparation)
    (operates : ∀ action ∈ operations, action.Operation)
    (runs : run (step config) (Ring.init zero) (preparations ++ operations) =
      some ring)
    (reading : ring.processors q = .reading reader) :
    reader.history = committedFrom ring 1 reader.next ∧
      reader.next ≤ ring.maxReadCursor + 1 ∧
      (∃ cursor, ring.entryProcessorCursors reader.spot = some cursor ∧
        Intact config ring (protectedFrom cursor)) ∧
      ∃ reads final caught,
        (∀ action ∈ reads, ∃ own, action = .process q own) ∧
        run (step config) ring reads = some final ∧
        final.processors q = .reading caught ∧
        caught.history = committedFrom ring 1 (ring.maxReadCursor + 1) := by
  have ready := ready_of_run prepares operates runs
  obtain ⟨history, available⟩ := ready.history reading
  have owns : (ring.processors q).owned = some reader.spot := by
    rw [reading]
    rfl
  refine ⟨history, available, ?_, ?_⟩
  · have present := (ready.sound.processors q).cursor_of_owned owns
    obtain ⟨cursor, present⟩ := Option.ne_none_iff_exists'.mp present
    exact ⟨cursor, present,
      (ready.served q).intact ready.sound ready.untouched owns present⟩
  · rcases Nat.lt_or_ge ring.maxReadCursor reader.next with done | behind
    · have last : reader.next = ring.maxReadCursor + 1 := by omega
      exact ⟨[], ring, reader, by simp, rfl, reading, last ▸ history⟩
    · obtain ⟨final, caught, reads, stands, next, same⟩ :=
        catches_up config reading behind
      refine ⟨_, final, caught, ?_, reads, stands, ?_⟩
      · intro action member
        simp only [List.mem_cons, List.mem_replicate] at member
        rcases member with rfl | rfl | ⟨-, rfl⟩ <;> exact ⟨_, rfl⟩
      · -- The longer run is again one with all registrations first.
        have longer := run_append_eq_some.mpr ⟨ring, runs, reads⟩
        rw [List.append_assoc] at longer
        have caughtUp := ready_of_run prepares (fun action member => ?_) longer
        · rw [(caughtUp.history stands).1, next, committedFrom, same]
          rfl
        · rcases List.mem_append.mp member with earlier | added
          · exact operates action earlier
          · simp only [List.mem_cons, List.mem_replicate] at added
            rcases added with rfl | rfl | ⟨-, rfl⟩ <;> trivial

def singleReaderActions : List (Action Nat) :=
  publicationActions 1 0 7 ++ [.process 0 .look, .process 0 .limit, .process 0 .read]

theorem processors_read_committed_single :
    ∃ ring reader, run (step ⟨1, 1⟩) (Ring.init 0)
        (registrationActions ++ singleReaderActions) = some ring ∧
      ring.processors 0 = .reading reader ∧ reader.history = [(1, 7)] ∧
      reader.history = committedFrom ring 1 reader.next := by
  have evaluates : (run (step ⟨1, 1⟩) (Ring.init 0)
      (registrationActions ++ singleReaderActions)).map (·.processors 0) =
      some (.reading ⟨0, 1, 2, 1, false, [(1, 7)]⟩) := by
    decide +kernel
  obtain ⟨ring, runs, reading⟩ := Option.map_eq_some_iff.mp evaluates
  have prepares : ∀ action ∈ registrationActions, action.Preparation := by
    simp [registrationActions, Action.Preparation]
  have operates : ∀ action ∈ singleReaderActions, action.Operation := by
    simp [singleReaderActions, publicationActions, Action.Operation]
  exact ⟨ring, _, runs, reading, rfl,
    (processors_read_committed prepares operates runs reading).1⟩

end Disruptor

end MercuryFix
