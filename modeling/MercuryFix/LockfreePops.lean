import MercuryFix.DeltaBlocks

/-!
# Messages taken without the guard

A registered popper takes the entries of delta with an entry processor of its own.
The entry processor that `init` has registered for the guarded `pop` never
releases anything meanwhile, so the splitter does not come behind the last entry of
the first round.
-/

namespace MercuryFix

open ByteBlock TransitionSystem

open Disruptor hiding Ring step

section Rings

variable {Content : Type} {config : Config}
  {ring next : Disruptor.Ring Content} {reader : Reader Content}

theorem step_reading {q : Nat} (action : ProcessorAction Content)
    (reading : ring.processors q = .reading reader) :
    Disruptor.step config ring (.process q action) = readerStep config ring q reader action := by
  cases action <;> simp [Disruptor.step, processorStep, reading]

structure Aside (ring next : Disruptor.Ring Content) (q : Nat) : Prop where
  maxReadCursor : next.maxReadCursor = ring.maxReadCursor
  writeCursor : next.writeCursor = ring.writeCursor
  publishers : next.publishers = ring.publishers
  committed : next.committed = ring.committed
  processors : ∀ r, r ≠ q → next.processors r = ring.processors r

variable {action : ProcessorAction Content}

theorem aside_of_process {q : Nat} (moves : ProcessorMove config ring q action next) :
    Aside ring next q := by
  have others (state : Processor Content) (r : Nat) (other : r ≠ q) :
      Function.update ring.processors q state r = ring.processors r :=
    Function.update_of_ne other _ _
  cases moves with
  | passes | checks | begins | waits | reads => exact ⟨rfl, rfl, rfl, rfl, others _⟩
  | registers | stores | unregisters => exact ⟨rfl, rfl, rfl, rfl, others _⟩
  | overwrites | releases => exact ⟨rfl, rfl, rfl, rfl, fun _ _ => rfl⟩

theorem process_buffer {q : Nat} (moves : ProcessorMove config ring q action next)
    (other : ∀ content, action ≠ .overwrite content) :
    next.buffer = ring.buffer := by
  cases moves with
  | passes | registers | checks | begins | stores | waits | reads | releases
  | unregisters => rfl
  | @overwrites reader content => exact absurd rfl (other content)

theorem process_entry {q : Nat} (sound : Disruptor.Sound config ring)
    (moves : ProcessorMove config ring q action next) (place : Nat) :
    next.buffer place = ring.buffer place ∨
      ∃ sequence, 1 ≤ sequence ∧ sequence ≤ ring.maxReadCursor ∧ config.index sequence = place := by
  cases moves with
  | passes | registers | checks | begins | stores | waits | reads | releases
  | unregisters => exact .inl rfl
  | @overwrites reader content reading started =>
    obtain ⟨-, positive, -, -, available⟩ := sound.readerOk reading
    by_cases here : config.index (reader.next - 1) = place
    · exact .inr ⟨reader.next - 1, by omega, by omega, here⟩
    · exact .inl (Function.update_of_ne (Ne.symm here) _ _)

structure Anchored (config : Config) (ring : Disruptor.Ring Content) : Prop where
  sound : Disruptor.Sound config ring
  shielded : Shielded config ring 0
  reading : ring.processors 0 = .reading (.begin 0 1)
  cursor : ring.entryProcessorCursors 0 = some 1

theorem Anchored.registered (zero : Content) (spot : 0 < config.spots) :
    Anchored config (Disruptor.Ring.registered zero) where
  sound := (Consumed.registered zero spot).sound
  shielded := (Consumed.registered zero spot).shielded
  reading := (Consumed.registered zero spot).reading
  cursor := by simp [Disruptor.Ring.registered]

namespace Anchored

section

variable (anchored : Anchored config ring)
include anchored

theorem fresh {sequence : Nat} (positive : 1 ≤ sequence) : Fresh config ring sequence :=
  anchored.shielded.fresh anchored.cursor positive

theorem readable_le : ring.maxReadCursor ≤ config.capacity := by
  have bound := (anchored.fresh le_rfl).1
  omega

theorem held_le {p sequence : Nat} (holds : (ring.publishers p).held = some sequence) :
    ring.maxReadCursor < sequence ∧ sequence ≤ config.capacity := by
  have bound := (anchored.fresh le_rfl).2 p sequence holds
  have above := (anchored.sound.claimed p sequence (Publisher.claimed_of_held holds)).1
  omega

theorem publish {p : Nat} {action : PublisherAction Content}
    (moves : PublisherMove config ring p action next) :
    Anchored config next where
  sound := anchored.sound.publish moves
  shielded := anchored.shielded.publish anchored.sound moves
  reading := by
    rw [moves.processors_eq]
    exact anchored.reading
  cursor := by
    rw [moves.cursors_eq]
    exact anchored.cursor

theorem spot_ne {q n : Nat} (other : q ≠ 0) (owns : (ring.processors q).owned = some n) :
    n ≠ 0 := by
  rintro rfl
  refine other (anchored.sound.owners q 0 0 owns ?_)
  rw [anchored.reading]
  rfl

theorem process {q : Nat} {action : ProcessorAction Content} (other : q ≠ 0)
    (moves : ProcessorMove config ring q action next) :
    Anchored config next where
  sound := by
    refine anchored.sound.process ?_ moves
    cases moves with
    | @overwrites reader content reading started =>
      intro standing same
      cases reading.symm.trans same
      have positive := (anchored.sound.readerOk reading).positive
      exact anchored.fresh (by omega)
    | passes acts => rcases acts with rfl | ⟨spurious, rfl⟩ <;> trivial
    | waits limit sighted acts => rcases acts with rfl | rfl <;> trivial
    | registers | checks | begins | stores | reads | releases | unregisters =>
      trivial
  shielded := by
    refine anchored.shielded.process anchored.sound moves ?_
    intro slowest swapping vacant
    cases vacant.symm.trans anchored.cursor
  reading := by
    rw [(aside_of_process moves).processors 0 other.symm]
    exact anchored.reading
  cursor := by
    cases moves with
    | passes | checks | begins | waits | reads | overwrites =>
      exact anchored.cursor
    | @registers n slowest swapping spot vacant =>
      have apart : 0 ≠ n := by
        rintro rfl
        cases vacant.symm.trans anchored.cursor
      exact (Function.update_of_ne apart _ _).trans anchored.cursor
    | @stores n storing =>
      have apart := anchored.spot_ne other (n := n) (by rw [storing]; rfl)
      exact (Function.update_of_ne apart.symm _ _).trans anchored.cursor
    | @releases reader cursor sequence reading =>
      have apart := anchored.spot_ne other (n := reader.spot) (by rw [reading]; rfl)
      exact (Function.update_of_ne apart.symm _ _).trans anchored.cursor
    | @unregisters reader reading =>
      have apart := anchored.spot_ne other (n := reader.spot) (by rw [reading]; rfl)
      exact (Function.update_of_ne apart.symm _ _).trans anchored.cursor

end

end Anchored

theorem first_round_index_ne {first second : Nat} (different : first ≠ second)
    (positiveFirst : 1 ≤ first) (upperFirst : first ≤ config.capacity)
    (positiveSecond : 1 ≤ second) (upperSecond : second ≤ config.capacity) :
    config.index first ≠ config.index second := by
  rcases Nat.lt_or_gt_of_ne different with before | behind
  · exact (config.index_ne before (by omega)).symm
  · exact config.index_ne behind (by omega)

section Admission

/-- The slowest of the registered entry processors. -/
def slowestCursor (config : Config) (ring : Disruptor.Ring Content) :
    Option Nat :=
  (List.range config.spots).foldl
    (fun slowest n => minCursor slowest (ring.entryProcessorCursors n)) none

def admits (config : Config) (ring : Disruptor.Ring Content) (incur : Nat) :
    Bool :=
  mayWrite config incur (scanned config incur (slowestCursor config ring))

theorem foldl_minCursor_some (cursors : Nat → Option Nat) (spots : List Nat) (slowest : Nat) :
    ∃ least, spots.foldl (fun slowest n => minCursor slowest (cursors n))
      (some slowest) = some least ∧ least ≤ slowest := by
  induction spots generalizing slowest with
  | nil => exact ⟨slowest, rfl, le_rfl⟩
  | cons n spots induction =>
    obtain ⟨lower, same, bound⟩ := minCursor_some_left slowest (cursors n)
    obtain ⟨least, found, below⟩ := induction lower
    exact ⟨least, by rw [List.foldl_cons, same, found], below.trans bound⟩

theorem foldl_minCursor_le {cursors : Nat → Option Nat} {spots : List Nat}
    {n cursor : Nat} (slowestReader : Option Nat) (member : n ∈ spots)
    (present : cursors n = some cursor) :
    ∃ least, spots.foldl (fun slowest n => minCursor slowest (cursors n))
      slowestReader = some least ∧ least ≤ cursor := by
  induction spots generalizing slowestReader with
  | nil => cases member
  | cons first spots induction =>
    rw [List.foldl_cons]
    rcases List.mem_cons.mp member with rfl | later
    · rw [present]
      obtain ⟨lower, same, bound⟩ := minCursor_some_right slowestReader cursor
      obtain ⟨least, found, below⟩ := foldl_minCursor_some cursors spots lower
      exact ⟨least, by rw [same, found], below.trans bound⟩
    · exact induction _ later

theorem foldl_minCursor_mem {cursors : Nat → Option Nat} {spots : List Nat}
    {slowestReader : Option Nat} {least : Nat}
    (found : spots.foldl (fun slowest n => minCursor slowest (cursors n))
      slowestReader = some least) :
    slowestReader = some least ∨ ∃ n ∈ spots, cursors n = some least := by
  induction spots generalizing slowestReader with
  | nil => exact .inl found
  | cons n spots induction =>
    rcases induction found with first | ⟨later, member, present⟩
    · change minCursor slowestReader (cursors n) = some least at first
      unfold minCursor at first
      split at first
      · rename_i slowest sequence present
        split at first
        · exact .inr ⟨n, List.mem_cons_self, present.trans first⟩
        · exact .inl first
      · exact .inl first
      · exact .inr ⟨n, List.mem_cons_self, first⟩
    · exact .inr ⟨later, List.mem_cons_of_mem n member, present⟩

end Admission

end Rings

def PopAction.guarded : PopAction → Bool
  | pop _ => true
  | splitter _ | sessionPop | inSitu _ | popper .. => false

namespace PopQueues

variable {state next : PopQueues}

section Moves

/-- What a step of a registered popper does. -/
inductive LockfreeMove (state : PopQueues) (k : Nat)
    (reader : Reader DeltaContent) : PopQueues → Prop
  | calls (standing : state.poppers k = .outside) :
      LockfreeMove state k reader (state.setPopper k .looking)
  | looks {ring : Disruptor.Ring DeltaContent}
      (standing : state.poppers k = .looking)
      (readable : reader.next ≤ state.delta.maxReadCursor)
      (steps : Disruptor.step deltaConfig state.delta
        (.process (k + 1) .look) = some ring)
      (same : ring = state.delta.setProcessor (k + 1)
        (.reading { reader with sighted := true })) :
      LockfreeMove state k reader
        ({ state with delta := ring }.setPopper k .limiting)
  | spins (standing : state.poppers k = .looking)
      (idle : ¬reader.next ≤ state.delta.maxReadCursor) :
      LockfreeMove state k reader (state.setPopper k .looking)
  | limits {ring : Disruptor.Ring DeltaContent}
      (standing : state.poppers k = .limiting)
      (steps : Disruptor.step deltaConfig state.delta
        (.process (k + 1) .limit) = some ring)
      (same : ring = state.delta.setProcessor (k + 1) (.reading
        { reader with
          sighted := false
          limit := state.delta.maxReadCursor })) :
      LockfreeMove state k reader
        ({ state with delta := ring }.setPopper k .taking)
  | takes {ring : Disruptor.Ring DeltaContent}
      (standing : state.poppers k = .taking)
      (readable : reader.next ≤ reader.limit)
      (steps : Disruptor.step deltaConfig state.delta
        (.process (k + 1) .read) = some ring)
      (same : ring = state.delta.setProcessor (k + 1) (.reading
        (reader.advance (state.delta.buffer (deltaConfig.index reader.next))))) :
      LockfreeMove state k reader ({ state with
        delta := ring
        messages := Function.update state.messages k (state.messages k ++
          [state.delta.buffer (deltaConfig.index reader.next)])
        taken := state.taken ++ [(k, reader.next)] }.setPopper k .clearing)
  | clears {content : DeltaContent} {ring : Disruptor.Ring DeltaContent}
      (standing : state.poppers k = .clearing)
      (started : reader.start < reader.next)
      (steps : Disruptor.step deltaConfig state.delta
        (.process (k + 1) (.overwrite content)) = some ring)
      (same : ring =
        state.delta.overwritten deltaConfig (reader.next - 1) content) :
      LockfreeMove state k reader ({ state with delta := ring }.setPopper k
        (if reader.next ≤ reader.limit then .taking else .releasing))
  | releases {ring : Disruptor.Ring DeltaContent}
      (standing : state.poppers k = .releasing)
      (steps : Disruptor.step deltaConfig state.delta
        (.process (k + 1) (.release reader.limit)) = some ring)
      (same : ring = state.delta.setCursor reader.spot (some reader.limit)) :
      LockfreeMove state k reader
        ({ state with delta := ring }.setPopper k .outside)

theorem lockfreeStep_moves {k : Nat} {reader : Reader DeltaContent}
    (reading : state.delta.processors (k + 1) = .reading reader)
    (steps : state.lockfreeStep k reader = some next) :
    LockfreeMove state k reader next := by
  unfold lockfreeStep at steps
  split at steps
  case h_1 standing =>
    cases steps
    exact .calls standing
  case h_2 standing =>
    obtain ⟨behind, enters, rfl⟩ := Option.map_eq_some_iff.mp steps
    obtain ⟨ring, moves, rfl⟩ := onDelta_eq_some.mp enters
    have expected := moves
    rw [step_reading _ reading, readerStep] at expected
    split at expected
    · rename_i readable
      cases expected
      rw [if_pos readable]
      exact .looks standing readable moves rfl
    · rename_i idle
      cases expected
      rw [if_neg idle]
      exact .spins standing idle
  case h_3 standing =>
    obtain ⟨behind, enters, rfl⟩ := Option.map_eq_some_iff.mp steps
    obtain ⟨ring, moves, rfl⟩ := onDelta_eq_some.mp enters
    have expected := moves
    rw [step_reading _ reading, readerStep] at expected
    obtain ⟨-, same⟩ := Option.ite_none_right_eq_some.mp expected
    cases same
    exact .limits standing moves rfl
  case h_4 standing =>
    obtain ⟨behind, enters, rfl⟩ := Option.map_eq_some_iff.mp steps
    obtain ⟨ring, moves, rfl⟩ := onDelta_eq_some.mp enters
    have expected := moves
    rw [step_reading _ reading, readerStep] at expected
    obtain ⟨readable, same⟩ := Option.ite_none_right_eq_some.mp expected
    cases same
    exact .takes standing readable moves rfl
  case h_5 standing =>
    obtain ⟨behind, enters, rfl⟩ := Option.map_eq_some_iff.mp steps
    obtain ⟨ring, moves, rfl⟩ := onDelta_eq_some.mp enters
    have expected := moves
    rw [step_reading _ reading, readerStep] at expected
    obtain ⟨started, same⟩ := Option.ite_none_right_eq_some.mp expected
    cases same
    exact .clears standing started moves rfl
  case h_6 standing =>
    obtain ⟨behind, enters, rfl⟩ := Option.map_eq_some_iff.mp steps
    obtain ⟨ring, moves, rfl⟩ := onDelta_eq_some.mp enters
    have expected := moves
    rw [step_reading _ reading, readerStep] at expected
    split at expected
    · obtain ⟨-, same⟩ := Option.ite_none_right_eq_some.mp expected
      cases same
      exact .releases standing moves rfl
    · cases expected

theorem popperReader_eq_some {k : Nat} {reader : Reader DeltaContent}
    (found : state.popperReader k = some reader) :
    state.delta.processors (k + 1) = .reading reader := by
  unfold popperReader at found
  split at found
  · rename_i standing reading
    cases found
    exact reading
  · cases found

end Moves

section Poppers

/-- What the place of a popper says about its entry processor. -/
def PopperAt (ring : Disruptor.Ring DeltaContent) (k : Nat) :
    LockfreePop → Prop
  | .outside => True
  | .looking => ∃ reader, ring.processors (k + 1) = .reading reader
  | .limiting => ∃ reader, ring.processors (k + 1) = .reading reader ∧
      reader.sighted = true ∧ reader.next ≤ ring.maxReadCursor
  | .taking => ∃ reader, ring.processors (k + 1) = .reading reader ∧ reader.next ≤ reader.limit
  | .clearing => ∃ reader, ring.processors (k + 1) = .reading reader ∧
      reader.start < reader.next ∧ reader.next ≤ reader.limit + 1
  | .releasing => ∃ reader, ring.processors (k + 1) = .reading reader ∧
      reader.start < reader.next ∧ reader.next = reader.limit + 1

variable {k : Nat} {place : LockfreePop}

theorem PopperAt.mono {ring after : Disruptor.Ring DeltaContent} (popperAt : PopperAt ring k place)
    (same : after.processors (k + 1) = ring.processors (k + 1))
    (grows : ring.maxReadCursor ≤ after.maxReadCursor) :
    PopperAt after k place := by
  cases place with
  | outside => trivial
  | looking | taking | clearing | releasing =>
    simp only [PopperAt, same]
    exact popperAt
  | limiting =>
    obtain ⟨reader, reading, sighted, readable⟩ := popperAt
    exact ⟨reader, same.trans reading, sighted, readable.trans grows⟩

theorem PopperAt.registered {ring : Disruptor.Ring DeltaContent} (popperAt : PopperAt ring k place)
    (inside : place ≠ .outside) :
    ∃ reader, ring.processors (k + 1) = .reading reader := by
  cases place with
  | outside => exact absurd rfl inside
  | looking => exact popperAt
  | limiting | taking | clearing | releasing =>
    obtain ⟨reader, reading, -⟩ := popperAt
    exact ⟨reader, reading⟩

def OneTurn (ring : Disruptor.Ring DeltaContent) : Prop :=
  match ring.publishers 0 with
  | .idle => ring.writeCursor = ring.maxReadCursor
  | .scanning true incur _ _ | .holding incur | .committing incur
  | .adding incur => incur = ring.maxReadCursor + 1 ∧ ring.writeCursor = incur
  | .scanning false .. | .claiming _ => False

/-- What holds while no thread uses the guarded `pop`. -/
structure LockfreePops (state : PopQueues) : Prop where
  anchored : Anchored deltaConfig state.delta
  oneTurn : OneTurn state.delta
  poppers : ∀ k, PopperAt state.delta k (state.poppers k)
  committed : state.deltaCommitted = committedTo state.delta state.delta.maxReadCursor
  blocks : Blocks state
  blank : Blank state.delta 1

theorem LockfreePops.init : LockfreePops init where
  anchored := .registered DeltaContent.zero (by decide)
  oneTurn := rfl
  poppers := fun _ => trivial
  committed := rfl
  blocks := .init
  blank := fun _ => .inl rfl

theorem OneTurn.publish {ring after : Disruptor.Ring DeltaContent}
    {action : PublisherAction DeltaContent} (oneTurn : OneTurn ring)
    (steps : Disruptor.step deltaConfig ring (.publish 0 action) = some after)
    (blocking : action ≠ .nextEntryNonblocking) : OneTurn after := by
  unfold OneTurn at oneTurn
  simp only [Disruptor.step] at steps
  generalize standing : ring.publishers 0 = before at oneTurn steps
  unfold publisherStep at steps
  split at steps
  case h_1 =>
    cases steps
    simp only [OneTurn, Disruptor.Ring.setPublisher_publishers, Function.update_self]
    exact ⟨congrArg (· + 1) oneTurn, rfl⟩
  case h_2 => exact absurd rfl blocking
  case h_3 blocks incur n slowestReader =>
    cases blocks with
    | false => exact oneTurn.elim
    | true =>
      split at steps
      · cases steps
        simp only [OneTurn, Disruptor.Ring.setPublisher_publishers, Function.update_self]
        exact oneTurn
      · cases steps
        simp only [OneTurn, Disruptor.Ring.setPublisher_publishers, Function.update_self]
        split_ifs <;> exact oneTurn
  case h_4 => exact oneTurn.elim
  case h_5 content sequence =>
    cases steps
    simp only [OneTurn, Disruptor.Ring.setEntry_publishers, standing]
    exact oneTurn
  case h_6 | h_7 =>
    cases steps
    simp only [OneTurn, Disruptor.Ring.setPublisher_publishers, Function.update_self]
    split_ifs <;> exact oneTurn
  case h_8 sequence =>
    cases steps
    simp only [OneTurn, Disruptor.Ring.setPublisher_publishers, Function.update_self]
    exact oneTurn.2.trans oneTurn.1
  case h_9 => cases steps

section

variable (pops : LockfreePops state)
include pops

theorem LockfreePops.published {action : PublisherAction DeltaContent}
    (steps : Disruptor.step deltaConfig state.delta (.publish 0 action) = some next.delta)
    (blocking : action ≠ .nextEntryNonblocking) (poppers : next.poppers = state.poppers)
    (committed : next.deltaCommitted = committedTo next.delta next.delta.maxReadCursor)
    (blocks : Blocks next) : LockfreePops next := by
  have sound := pops.anchored.sound
  have moves : PublisherMove deltaConfig state.delta 0 action next.delta :=
    publisherMove_of_step steps
  refine ⟨pops.anchored.publish moves, pops.oneTurn.publish steps blocking, ?_, committed, blocks,
    pops.blank.publish sound (Nat.le_add_left 1 _) moves⟩
  intro k
  rw [poppers]
  exact (pops.poppers k).mono (congrFun moves.processors_eq (k + 1)) moves.maxReadCursor_le

theorem LockfreePops.elsewhere (delta : next.delta = state.delta)
    (poppers : next.poppers = state.poppers)
    (committed : next.deltaCommitted = state.deltaCommitted) (blocks : Blocks next) :
    LockfreePops next where
  anchored := delta ▸ pops.anchored
  oneTurn := delta ▸ pops.oneTurn
  poppers := by
    rw [delta, poppers]
    exact pops.poppers
  committed := by
    rw [delta, committed]
    exact pops.committed
  blocks := blocks
  blank := delta ▸ pops.blank

theorem LockfreePops.acquires {ring : Disruptor.Ring DeltaContent} {sequence : Nat}
    (steps : Disruptor.step deltaConfig state.delta (.publish 0 .scan) = some ring)
    (holds : (ring.publishers 0).held = some sequence) :
    state.delta.buffer (deltaConfig.index sequence) = .zero := by
  have moves : PublisherMove deltaConfig state.delta 0 .scan ring := publisherMove_of_step steps
  obtain ⟨above, upper⟩ := (pops.anchored.publish moves).held_le holds
  rw [(publish_committed moves nofun).1] at above
  have bound := pops.anchored.readable_le
  refine pops.blank.acquired (scan_unheld steps) fun readable lower inside => ?_
  exact first_round_index_ne (by omega) lower (by omega) (by omega) upper

theorem LockfreePops.splitterStep {input : SplitterInput}
    (steps : state.splitterStep input = some next) :
    LockfreePops next := by
  have sound := pops.anchored.sound
  have blocks := pops.blocks.splitterStep sound (fun _ _ => pops.acquires) steps
  have committed := splitterStep_committed pops.blocks sound pops.committed steps
  cases splitterStep_moves steps with
  | asksDelta standing moves | scansDelta standing moves
  | fills standing holds positive small moves | delivers standing holds moves
  | awaitsDelta standing moves | commitsDelta standing moves =>
    exact pops.published moves nofun rfl committed blocks
  | asksEcho | scansEcho | deliversSession | awaitsEcho | commitsEcho =>
    exact pops.elsewhere rfl rfl rfl blocks

theorem LockfreePops.sessionStep (steps : state.sessionStep = some next) : LockfreePops next := by
  obtain ⟨echo, echoN, limit, session, popped, rfl⟩ := sessionStep_frame steps
  exact pops.elsewhere rfl rfl rfl (pops.blocks.kept rfl rfl rfl rfl fun _ _ => rfl)

end

variable {action : ProcessorAction DeltaContent}

theorem LockfreePops.processed (pops : LockfreePops state)
    (steps : Disruptor.step deltaConfig state.delta (.process (k + 1) action) = some next.delta)
    (splitter : next.splitter = state.splitter) (mallocs : next.mallocs = state.mallocs)
    (committed : next.deltaCommitted = state.deltaCommitted)
    (here : PopperAt next.delta k (next.poppers k))
    (others : ∀ j, j ≠ k → next.poppers j = state.poppers j) :
    LockfreePops next := by
  have moves : ProcessorMove deltaConfig state.delta (k + 1) action next.delta :=
    processorMove_of_step steps
  have aside := aside_of_process moves
  have anchored := pops.anchored.process (Nat.succ_ne_zero k) moves
  have entry := process_entry pops.anchored.sound moves
  have bound := pops.anchored.readable_le
  refine ⟨anchored, ?_, ?_, ?_, ?_, ?_⟩
  · have oneTurn := pops.oneTurn
    unfold OneTurn at oneTurn ⊢
    rw [aside.publishers, aside.maxReadCursor, aside.writeCursor]
    exact oneTurn
  · intro j
    by_cases same : j = k
    · rw [same]
      exact here
    · rw [others j same]
      exact (pops.poppers j).mono (aside.processors (j + 1) (by omega)) aside.maxReadCursor.ge
  · rw [committed, aside.maxReadCursor, pops.committed]
    exact (committedTo_congr fun sequence _ =>
      congrFun aside.committed sequence).symm
  · refine pops.blocks.kept mallocs committed splitter
      (congrFun aside.publishers 0) fun held holds => ?_
    obtain ⟨above, upper⟩ := pops.anchored.held_le holds
    rcases entry (deltaConfig.index held) with
      same | ⟨sequence, positive, readable, place⟩
    · exact same
    · exact absurd place (first_round_index_ne (by omega) positive (by omega) (by omega) upper)
  · intro place
    rw [aside.publishers, aside.maxReadCursor]
    rcases entry place with same | readable
    · rw [same]
      exact pops.blank place
    · exact .inr (.inl readable)

theorem LockfreePops.outside_of_register (pops : LockfreePops state)
    {ring : Disruptor.Ring DeltaContent} (registering : registers action)
    (steps : Disruptor.step deltaConfig state.delta (.process (k + 1) action) = some ring) :
    state.poppers k = .outside := by
  by_contra inside
  obtain ⟨reader, reading⟩ := (pops.poppers k).registered inside
  rw [step_reading _ reading] at steps
  cases action with
  | load | swap _ | check | store => cases steps
  | look | limit | read | overwrite _ | release _ | unregister =>
    cases registering

theorem LockfreePops.registers (pops : LockfreePops state)
    (steps : state.popperStep k (.register action) = some next) :
    LockfreePops next := by
  obtain ⟨registering, rest⟩ := Option.ite_none_right_eq_some.mp steps
  obtain ⟨ring, moves, rfl⟩ := onDelta_eq_some.mp rest
  have outside := pops.outside_of_register registering moves
  refine pops.processed (k := k) moves rfl rfl rfl ?_ fun _ _ => rfl
  simp only [outside]
  trivial

theorem LockfreePops.unregisters (pops : LockfreePops state)
    (steps : state.popperStep k .unregister = some next) :
    LockfreePops next := by
  obtain ⟨outside, rest⟩ := Option.ite_none_right_eq_some.mp steps
  obtain ⟨ring, moves, rfl⟩ := onDelta_eq_some.mp rest
  refine pops.processed (k := k) moves rfl rfl rfl ?_ fun _ _ => rfl
  simp only [outside]
  trivial

theorem setPopper_self : (state.setPopper k place).poppers k = place := Function.update_self _ _ _

theorem setPopper_other {j : Nat} (other : j ≠ k) :
    (state.setPopper k place).poppers j = state.poppers j :=
  Function.update_of_ne other _ _

theorem LockfreePops.turns (pops : LockfreePops state) (here : PopperAt state.delta k place) :
    LockfreePops (state.setPopper k place) where
  anchored := pops.anchored
  oneTurn := pops.oneTurn
  poppers := by
    intro j
    by_cases same : j = k
    · rw [same, setPopper_self]
      exact here
    · rw [setPopper_other same]
      exact pops.poppers j
  committed := pops.committed
  blocks := pops.blocks.kept rfl rfl rfl rfl fun _ _ => rfl
  blank := pops.blank

theorem LockfreePops.goes (pops : LockfreePops state) {reader : Reader DeltaContent}
    (reading : state.delta.processors (k + 1) = .reading reader)
    (moves : LockfreeMove state k reader next) : LockfreePops next := by
  have popperAt := pops.poppers k
  cases moves with
  | calls standing => exact pops.turns ⟨reader, reading⟩
  | spins standing idle => exact pops.turns ⟨reader, reading⟩
  | looks standing readable steps same =>
    subst same
    refine pops.processed steps rfl rfl rfl ?_ fun _ => setPopper_other
    rw [setPopper_self]
    exact ⟨_, Function.update_self _ _ _, rfl, readable⟩
  | limits standing steps same =>
    subst same
    rw [standing] at popperAt
    obtain ⟨before, readingBefore, sighted, readable⟩ := popperAt
    cases reading.symm.trans readingBefore
    refine pops.processed steps rfl rfl rfl ?_ fun _ => setPopper_other
    rw [setPopper_self]
    exact ⟨_, Function.update_self _ _ _, readable⟩
  | takes standing readable steps same =>
    subst same
    refine pops.processed steps rfl rfl rfl ?_ fun _ => setPopper_other
    rw [setPopper_self]
    have ordered := (pops.anchored.sound.readerOk reading).ordered
    exact ⟨_, Function.update_self _ _ _, Nat.lt_succ_of_le ordered, Nat.succ_le_succ readable⟩
  | clears standing started steps same =>
    subst same
    rw [standing] at popperAt
    obtain ⟨before, readingBefore, -, bound⟩ := popperAt
    cases reading.symm.trans readingBefore
    refine pops.processed steps rfl rfl rfl ?_ fun _ => setPopper_other
    rw [setPopper_self]
    split
    · exact ⟨reader, reading, ‹_›⟩
    · exact ⟨reader, reading, started, by omega⟩
  | releases standing steps same =>
    subst same
    refine pops.processed steps rfl rfl rfl ?_ fun _ => setPopper_other
    rw [setPopper_self]
    trivial

theorem LockfreePops.step {action : PopAction} (pops : LockfreePops state)
    (lockfree : action.guarded = false)
    (steps : state.step action = some next) : LockfreePops next := by
  cases action with
  | splitter input => exact pops.splitterStep steps
  | pop thread => cases lockfree
  | sessionPop => exact pops.sessionStep steps
  | inSitu content =>
    obtain ⟨-, rest⟩ := Option.ite_none_right_eq_some.mp steps
    obtain ⟨ring, -, rfl⟩ := onEcho_eq_some.mp rest
    exact pops.elsewhere rfl rfl rfl (pops.blocks.kept rfl rfl rfl rfl fun _ _ => rfl)
  | popper k action =>
    cases action with
    | register action => exact pops.registers steps
    | unregister => exact pops.unregisters steps
    | go =>
      obtain ⟨reader, found, rest⟩ := Option.bind_eq_some_iff.mp steps
      have reading := popperReader_eq_some found
      exact pops.goes reading (lockfreeStep_moves reading rest)

theorem lockfreePops_of_run {actions : List PopAction}
    (lockfree : ∀ action ∈ actions, action.guarded = false)
    (runs : run PopQueues.step init actions = some state) :
    LockfreePops state :=
  run_invariant_guarded LockfreePops (fun _ action => action.guarded = false)
    LockfreePops.step .init
    (guarded_of_forall fun action member _ => lockfree action member) runs

end Poppers

section Admission

def nextDelta (state : PopQueues) : Nat :=
  match state.delta.publishers 0 with
  | .scanning true incur _ _ => incur
  | _ => state.delta.writeCursor + 1

def Released (state : PopQueues) : Prop :=
  ∀ n < deltaConfig.spots, n ≠ 0 →
    state.delta.entryProcessorCursors n = none ∨
      state.delta.entryProcessorCursors n = some state.delta.maxReadCursor

instance (state : PopQueues) : Decidable (Released state) :=
  inferInstanceAs (Decidable (∀ n < deltaConfig.spots, n ≠ 0 →
    state.delta.entryProcessorCursors n = none ∨
      state.delta.entryProcessorCursors n = some state.delta.maxReadCursor))

theorem LockfreePops.nextDelta_bounds (pops : LockfreePops state) :
    1 ≤ state.nextDelta ∧ state.nextDelta ≤ state.delta.maxReadCursor + 2 := by
  have oneTurn := pops.oneTurn
  have readable := pops.anchored.sound.readable
  unfold OneTurn at oneTurn
  unfold nextDelta
  cases standing : state.delta.publishers 0 with
  | scanning blocking incur n slowest =>
    rw [standing] at oneTurn
    cases blocking with
    | false => exact oneTurn.elim
    | true =>
      change 1 ≤ incur ∧ incur ≤ state.delta.maxReadCursor + 2
      have following := oneTurn.1
      omega
  | claiming incur =>
    rw [standing] at oneTurn
    exact oneTurn.elim
  | idle =>
    rw [standing] at oneTurn
    simp only at oneTurn ⊢
    omega
  | holding incur | committing incur | adding incur =>
    rw [standing] at oneTurn
    simp only at oneTurn ⊢
    omega

theorem LockfreePops.slowest (pops : LockfreePops state) :
    ∃ least, slowestCursor deltaConfig state.delta = some least ∧
      (least = 1 ∨ least = 0 ∧ ∃ n < deltaConfig.spots, n ≠ 0 ∧
        state.delta.entryProcessorCursors n = some 0) := by
  have first : 0 ∈ List.range deltaConfig.spots := by decide
  obtain ⟨least, found, bound⟩ := foldl_minCursor_le none first pops.anchored.cursor
  refine ⟨least, found, ?_⟩
  rcases foldl_minCursor_mem found with absent | ⟨n, member, present⟩
  · cases absent
  · rcases Nat.le_one_iff_eq_zero_or_eq_one.mp bound with rfl | rfl
    · refine .inr ⟨rfl, n, List.mem_range.mp member, ?_, present⟩
      rintro rfl
      cases present.symm.trans pops.anchored.cursor
    · exact .inl rfl

/-- However much the registered poppers have released, the splitter gets the
entries of the first round and no more. -/
theorem released_admits_iff (actions : List PopAction) {state : PopQueues}
    (lockfree : ∀ action ∈ actions, action.guarded = false)
    (runs : run step init actions = some state) (released : Released state) :
    admits deltaConfig state.delta state.nextDelta = true ↔
      state.nextDelta ≤ 128 := by
  have pops := lockfreePops_of_run lockfree runs
  obtain ⟨positive, upper⟩ := pops.nextDelta_bounds
  obtain ⟨least, found, bound⟩ := pops.slowest
  have reduced : deltaConfig.reducedSize = 127 := rfl
  have test : admits deltaConfig state.delta state.nextDelta = true ↔
      least ≤ state.nextDelta ∧ state.nextDelta - least ≤ 127 := by
    simp only [admits, found, scanned, mayWrite, reduced, decide_eq_true_eq]
  rw [test]
  rcases bound with rfl | ⟨rfl, n, spot, other, zero⟩
  · omega
  · -- A released cursor is zero only before the first message.
    have early : state.delta.maxReadCursor = 0 := by
      rcases released n spot other with vacant | last
      · cases vacant.symm.trans zero
      · exact Option.some.inj (last.symm.trans zero)
    omega

def registration : List PopAction :=
  [.popper 0 (.register .load), .popper 0 (.register (.swap false)),
    .popper 0 (.register .load), .popper 0 (.register (.swap false)),
    .popper 0 (.register .check), .popper 0 (.register .store)]

def messageSteps : List PopAction :=
  [.splitter (.fill 40), .splitter (.deliver 16)] ++
  List.replicate 12 (.splitter .go)

def popperSteps (count : Nat) : List PopAction := List.replicate (4 + 2 * count) (.popper 0 .go)

def oneTaken : List PopAction :=
  registration ++ List.replicate 13 (.splitter .go) ++ messageSteps ++
  popperSteps 1

theorem one_taken_admits :
    ∃ state, run step init oneTaken = some state ∧ state.nextDelta = 3 ∧
      Released state ∧ admits deltaConfig state.delta state.nextDelta = true := by
  have evaluated : (run step init oneTaken).map
      (fun state => (state.nextDelta, decide (Released state))) =
      some (3, true) := by
    decide +kernel
  obtain ⟨state, runs, seen⟩ := Option.map_eq_some_iff.mp evaluated
  have number : state.nextDelta = 3 := congrArg Prod.fst seen
  have released : Released state :=
    of_decide_eq_true (congrArg Prod.snd seen)
  exact ⟨state, runs, number, released,
    (released_admits_iff oneTaken (by decide) runs released).mpr
      (by rw [number]; decide)⟩

/-- 128 messages are committed and taken, and the splitter waits for an entry. -/
def roundTaken : List PopAction :=
  registration ++ List.replicate 13 (.splitter .go) ++
  (List.replicate 127 messageSteps).flatten ++
  [.splitter (.fill 40), .splitter (.deliver 16)] ++
  List.replicate 3 (.splitter .go) ++ popperSteps 128

theorem round_taken_stalls :
    (∀ action ∈ roundTaken, action.guarded = false) ∧
      ∃ state, run step init roundTaken = some state ∧
        state.delta.maxReadCursor = 128 ∧ Released state ∧
        state.delta.publishers 0 = .scanning true 129 0 none ∧
        admits deltaConfig state.delta 129 = false := by
  have evaluated : (run step init roundTaken).map (fun state =>
      (state.delta.maxReadCursor, decide (Released state),
        state.delta.publishers 0, admits deltaConfig state.delta 129)) =
      some (128, true, .scanning true 129 0 none, false) := by
    decide +kernel
  refine ⟨by decide +kernel, ?_⟩
  obtain ⟨state, runs, seen⟩ := Option.map_eq_some_iff.mp evaluated
  simp only [Prod.mk.injEq, decide_eq_true_eq] at seen
  exact ⟨state, runs, seen⟩

end Admission

end PopQueues

end MercuryFix
