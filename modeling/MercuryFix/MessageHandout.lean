import MercuryFix.LockfreePops
import Mathlib.Data.List.Nodup

/-!
# Which popper gets a message

Every registered popper reads every entry of delta, and clears it.  A message
arrives once and whole if no popper takes an entry that another one has taken.
-/

namespace MercuryFix

open ByteBlock TransitionSystem

open Disruptor hiding Ring step

def Intact (ring : Disruptor.Ring DeltaContent) (taken : List Nat) : Prop :=
  ∀ sequence, 1 ≤ sequence → sequence ≤ ring.maxReadCursor →
    sequence ∉ taken →
    ring.buffer (deltaConfig.index sequence) = ring.committed sequence

section Intact

variable {ring next : Disruptor.Ring DeltaContent} {taken : List Nat}

theorem Intact.publish {p : Nat} {action : PublisherAction DeltaContent}
    (intact : Intact ring taken) (anchored : Anchored deltaConfig ring)
    (moves : PublisherMove deltaConfig ring p action next) :
    Intact next taken := by
  have bound := anchored.readable_le
  intro sequence positive readable untaken
  cases moves with
  | turn => exact intact sequence positive readable untaken
  | @write held content writes =>
    have holds : (ring.publishers p).held = some held := by
      rw [writes]
      rfl
    obtain ⟨above, upper⟩ := anchored.held_le holds
    have inside : sequence ≤ ring.maxReadCursor := readable
    have apart : deltaConfig.index sequence ≠ deltaConfig.index held :=
      first_round_index_ne (by omega) positive (by omega) (by omega) upper
    exact (Function.update_of_ne apart _ _).trans (intact sequence positive readable untaken)
  | @commit held adds =>
    have following := anchored.sound.adding p held adds
    simp only [Disruptor.Ring.setPublisher_committed,
      Disruptor.Ring.setPublisher_buffer, Function.update_apply]
    split
    · rename_i same
      rw [same]
    · rename_i earlier
      have inside : sequence ≤ ring.maxReadCursor + 1 := readable
      exact intact sequence positive (by omega) untaken

theorem Intact.mono {later : List Nat} (intact : Intact ring taken) (more : taken ⊆ later)
    (cursor : next.maxReadCursor = ring.maxReadCursor) (committed : next.committed = ring.committed)
    (buffer : next.buffer = ring.buffer) : Intact next later := by
  intro sequence positive readable untaken
  rw [buffer, committed]
  exact intact sequence positive (cursor ▸ readable) fun member => untaken (more member)

theorem Intact.overwritten {sequence : Nat} {content : DeltaContent}
    (intact : Intact ring taken) (anchored : Anchored deltaConfig ring)
    (member : sequence ∈ taken) (positive : 1 ≤ sequence)
    (readable : sequence ≤ ring.maxReadCursor) :
    Intact (ring.overwritten deltaConfig sequence content) taken := by
  have bound := anchored.readable_le
  intro other positiveOther readableOther untaken
  have inside : other ≤ ring.maxReadCursor := readableOther
  have different : other ≠ sequence := by
    rintro rfl
    exact untaken member
  have apart : deltaConfig.index other ≠ deltaConfig.index sequence :=
    first_round_index_ne different positiveOther (by omega) positive (by omega)
  exact (Function.update_of_ne apart _ _).trans (intact other positiveOther inside untaken)

end Intact

namespace PopQueues

variable {state next : PopQueues}

/-- A popper takes an entry that nobody has taken before, and no thread uses the
guarded `pop`. -/
def TakenOnce (state : PopQueues) : PopAction → Prop
  | .popper k .go => state.poppers k = .taking →
      ∀ reader ∈ state.popperReader k, reader.next ∉ state.taken.map Prod.snd
  | .pop _ => False
  | _ => True

instance (state : PopQueues) (action : PopAction) :
    Decidable (TakenOnce state action) :=
  match action with
  | .popper k .go =>
    inferInstanceAs (Decidable (state.poppers k = .taking →
      ∀ reader ∈ state.popperReader k, reader.next ∉ state.taken.map Prod.snd))
  | .pop _ => isFalse id
  | .splitter _ | .sessionPop | .inSitu _ | .popper _ (.register _)
  | .popper _ .unregister => isTrue trivial

/-- What holds while every entry is taken once. -/
structure Handout (state : PopQueues) : Prop where
  pops : LockfreePops state
  taken : ∀ pair ∈ state.taken, 1 ≤ pair.2 ∧ pair.2 ≤ state.delta.maxReadCursor
  distinct : (state.taken.map Prod.snd).Nodup
  intact : Intact state.delta (state.taken.map Prod.snd)
  clearing : ∀ k reader, state.delta.processors (k + 1) = .reading reader →
    state.poppers k = .clearing → reader.next - 1 ∈ state.taken.map Prod.snd
  messages : ∀ k, state.messages k =
    (state.taken.filter (·.1 = k)).map fun pair =>
      state.delta.committed pair.2

theorem Handout.init : Handout init where
  pops := .init
  taken := nofun
  distinct := .nil
  intact := fun sequence positive readable => by
    simp only [PopQueues.init, Disruptor.Ring.registered, Disruptor.Ring.init,
      Disruptor.Ring.setProcessor_maxReadCursor, Disruptor.Ring.setCursor_maxReadCursor] at readable
    omega
  clearing := nofun
  messages := fun _ => rfl

section

variable (handout : Handout state)
include handout

theorem Handout.published {action : PublisherAction DeltaContent} (pops : LockfreePops next)
    (steps : Disruptor.step deltaConfig state.delta (.publish 0 action) = some next.delta)
    (poppers : next.poppers = state.poppers) (taken : next.taken = state.taken)
    (messages : next.messages = state.messages) : Handout next := by
  have anchored := handout.pops.anchored
  have moves : PublisherMove deltaConfig state.delta 0 action next.delta :=
    publisherMove_of_step steps
  refine ⟨pops, ?_, ?_, ?_, ?_, ?_⟩
  · intro pair member
    rw [taken] at member
    obtain ⟨positive, readable⟩ := handout.taken pair member
    exact ⟨positive, readable.trans moves.maxReadCursor_le⟩
  · rw [taken]
    exact handout.distinct
  · rw [taken]
    exact handout.intact.publish anchored moves
  · rw [taken, poppers, moves.processors_eq]
    exact handout.clearing
  · intro k
    rw [messages, taken, handout.messages k]
    refine List.map_congr_left fun pair member => ?_
    have readable := (handout.taken pair (List.mem_of_mem_filter member)).2
    exact (moves.committed_eq anchored.sound readable).symm

theorem Handout.elsewhere (pops : LockfreePops next) (delta : next.delta = state.delta)
    (poppers : next.poppers = state.poppers) (taken : next.taken = state.taken)
    (messages : next.messages = state.messages) : Handout next where
  pops := pops
  taken := by
    rw [taken, delta]
    exact handout.taken
  distinct := by
    rw [taken]
    exact handout.distinct
  intact := by
    rw [taken, delta]
    exact handout.intact
  clearing := by
    rw [taken, delta, poppers]
    exact handout.clearing
  messages := by
    rw [taken, delta, messages]
    exact handout.messages

theorem Handout.splitterStep {input : SplitterInput}
    (steps : state.splitterStep input = some next) :
    Handout next := by
  have pops := handout.pops.splitterStep steps
  cases splitterStep_moves steps with
  | asksDelta standing moves | scansDelta standing moves
  | fills standing holds positive small moves | delivers standing holds moves
  | awaitsDelta standing moves | commitsDelta standing moves =>
    exact handout.published pops moves rfl rfl rfl
  | asksEcho | scansEcho | deliversSession | awaitsEcho | commitsEcho =>
    exact handout.elsewhere pops rfl rfl rfl rfl

theorem Handout.sessionStep (steps : state.sessionStep = some next) : Handout next := by
  have pops := handout.pops.sessionStep steps
  obtain ⟨echo, echoN, limit, session, popped, rfl⟩ := sessionStep_frame steps
  exact handout.elsewhere pops rfl rfl rfl rfl

theorem Handout.processed (pops : LockfreePops next) {k : Nat}
    (aside : Aside state.delta next.delta (k + 1)) (buffer : next.delta.buffer = state.delta.buffer)
    (here : next.poppers k ≠ .clearing) (others : ∀ j, j ≠ k → next.poppers j = state.poppers j)
    (taken : next.taken = state.taken) (messages : next.messages = state.messages) :
    Handout next where
  pops := pops
  taken := by
    rw [taken, aside.maxReadCursor]
    exact handout.taken
  distinct := by
    rw [taken]
    exact handout.distinct
  intact := by
    rw [taken]
    exact handout.intact.mono (List.Subset.refl _) aside.maxReadCursor aside.committed buffer
  clearing := by
    intro j reader reading standing
    have other : j ≠ k := by
      rintro rfl
      exact here standing
    rw [aside.processors (j + 1) (by omega)] at reading
    rw [others j other] at standing
    rw [taken]
    exact handout.clearing j reader reading standing
  messages := by
    rw [taken, messages, aside.committed]
    exact handout.messages

theorem Handout.takes {k : Nat} {reader : Reader DeltaContent} {ring : Disruptor.Ring DeltaContent}
    (pops : LockfreePops ({ state with
      delta := ring
      messages := Function.update state.messages k (state.messages k ++
        [state.delta.buffer (deltaConfig.index reader.next)])
      taken := state.taken ++ [(k, reader.next)] }.setPopper k .clearing))
    (reading : state.delta.processors (k + 1) = .reading reader)
    (readable : reader.next ≤ reader.limit) (fresh : reader.next ∉ state.taken.map Prod.snd)
    (same : ring = state.delta.setProcessor (k + 1) (.reading
      (reader.advance (state.delta.buffer (deltaConfig.index reader.next))))) :
    Handout ({ state with
      delta := ring
      messages := Function.update state.messages k (state.messages k ++
        [state.delta.buffer (deltaConfig.index reader.next)])
      taken := state.taken ++ [(k, reader.next)] }.setPopper k .clearing) := by
  subst same
  obtain ⟨-, positive, ordered, limit, -⟩ := handout.pops.anchored.sound.readerOk reading
  have inside : reader.next ≤ state.delta.maxReadCursor := readable.trans limit
  have content := handout.intact reader.next (by omega) inside fresh
  have grown : (state.taken ++ [(k, reader.next)]).map Prod.snd =
      state.taken.map Prod.snd ++ [reader.next] := by
    rw [List.map_append, List.map_singleton]
  refine ⟨pops, ?_, ?_, ?_, ?_, ?_⟩
  · intro pair member
    rcases List.mem_append.mp member with earlier | last
    · exact handout.taken pair earlier
    · cases List.mem_singleton.mp last
      exact ⟨by omega, inside⟩
  · change ((state.taken ++ [(k, reader.next)]).map Prod.snd).Nodup
    rw [grown]
    refine List.nodup_append.mpr ⟨handout.distinct, by simp, ?_⟩
    intro first earlier last member same
    cases List.mem_singleton.mp member
    exact fresh (same ▸ earlier)
  · change Intact _ ((state.taken ++ [(k, reader.next)]).map Prod.snd)
    rw [grown]
    exact handout.intact.mono (List.subset_append_left _ _) rfl rfl rfl
  · intro j later readingLater standing
    change later.next - 1 ∈ (state.taken ++ [(k, reader.next)]).map Prod.snd
    rw [grown]
    by_cases here : j = k
    · subst here
      cases (Function.update_self _ _ _).symm.trans readingLater
      exact List.mem_append_right _ (List.mem_singleton.mpr rfl)
    · have readingBefore : state.delta.processors (j + 1) = .reading later :=
        (Function.update_of_ne (by omega) _ _).symm.trans readingLater
      rw [setPopper_other here] at standing
      exact List.mem_append_left _ (handout.clearing j later readingBefore standing)
  · intro j
    change Function.update state.messages k _ j =
      ((state.taken ++ [(k, reader.next)]).filter (·.1 = j)).map fun pair =>
        state.delta.committed pair.2
    rw [List.filter_append, List.map_append, content]
    by_cases here : j = k
    · subst here
      rw [Function.update_self, handout.messages j]
      simp
    · rw [Function.update_of_ne here, handout.messages j]
      simp [Ne.symm here]

theorem Handout.goes {k : Nat} {reader : Reader DeltaContent}
    (reading : state.delta.processors (k + 1) = .reading reader)
    (fresh : state.poppers k = .taking → reader.next ∉ state.taken.map Prod.snd)
    (moves : LockfreeMove state k reader next) : Handout next := by
  have pops := handout.pops.goes reading moves
  have placed {place : LockfreePop} {before : PopQueues} (other : place ≠ .clearing) :
      (before.setPopper k place).poppers k ≠ .clearing := by
    rwa [setPopper_self]
  cases moves with
  | calls standing | spins standing idle =>
    exact handout.processed pops ⟨rfl, rfl, rfl, rfl, fun _ _ => rfl⟩ rfl
      (placed nofun) (fun _ => setPopper_other) rfl rfl
  | looks standing readable steps same | limits standing steps same =>
    subst same
    exact handout.processed pops (aside_of_process (processorMove_of_step steps)) rfl (placed nofun)
      (fun _ => setPopper_other) rfl rfl
  | releases standing steps same =>
    subst same
    exact handout.processed pops (aside_of_process (processorMove_of_step steps)) rfl (placed nofun)
      (fun _ => setPopper_other) rfl rfl
  | takes standing readable steps same =>
    exact handout.takes pops reading readable (fresh standing) same
  | @clears content ring standing started steps same =>
    subst same
    have member := handout.clearing k reader reading standing
    obtain ⟨pair, pairMember, pairNumber⟩ := List.mem_map.mp member
    obtain ⟨positive, readable⟩ := handout.taken pair pairMember
    rw [pairNumber] at positive readable
    have aside := aside_of_process (processorMove_of_step steps)
    refine ⟨pops, handout.taken, handout.distinct,
      handout.intact.overwritten handout.pops.anchored member positive
        readable, ?_, handout.messages⟩
    intro j later readingLater standingLater
    by_cases here : j = k
    · rw [here, setPopper_self] at standingLater
      split at standingLater <;> cases standingLater
    · rw [setPopper_other here] at standingLater
      exact handout.clearing j later readingLater standingLater

end

theorem Handout.step {action : PopAction} (handout : Handout state)
    (once : TakenOnce state action) (steps : state.step action = some next) :
    Handout next := by
  cases action with
  | splitter input => exact handout.splitterStep steps
  | pop thread => exact once.elim
  | sessionPop => exact handout.sessionStep steps
  | inSitu content =>
    have pops := handout.pops.step rfl steps
    obtain ⟨-, rest⟩ := Option.ite_none_right_eq_some.mp steps
    obtain ⟨ring, -, rfl⟩ := onEcho_eq_some.mp rest
    exact handout.elsewhere pops rfl rfl rfl rfl
  | popper k action =>
    cases action with
    | register action =>
      have pops := handout.pops.registers steps
      obtain ⟨registering, rest⟩ := Option.ite_none_right_eq_some.mp steps
      obtain ⟨ring, moves, rfl⟩ := onDelta_eq_some.mp rest
      have outside := handout.pops.outside_of_register registering moves
      have entries := process_buffer (processorMove_of_step moves) (by
        rintro content rfl
        cases registering)
      exact handout.processed pops (aside_of_process (processorMove_of_step moves)) entries
        (by simp [outside]) (fun _ _ => rfl) rfl rfl
    | unregister =>
      have pops := handout.pops.unregisters steps
      obtain ⟨outside, rest⟩ := Option.ite_none_right_eq_some.mp steps
      obtain ⟨ring, moves, rfl⟩ := onDelta_eq_some.mp rest
      have entries := process_buffer (processorMove_of_step moves) nofun
      exact handout.processed pops (aside_of_process (processorMove_of_step moves)) entries
        (by simp [outside]) (fun _ _ => rfl) rfl rfl
    | go =>
      obtain ⟨reader, found, rest⟩ := Option.bind_eq_some_iff.mp steps
      have reading := popperReader_eq_some found
      exact handout.goes reading (fun standing => once standing reader found)
        (lockfreeStep_moves reading rest)

theorem LockfreePops.committed_data_inj (pops : LockfreePops state)
    {first second : Nat} (positiveFirst : 1 ≤ first)
    (readableFirst : first ≤ state.delta.maxReadCursor) (positiveSecond : 1 ≤ second)
    (readableSecond : second ≤ state.delta.maxReadCursor)
    (same : (state.delta.committed first).data =
      (state.delta.committed second).data) : first = second := by
  have distinct := pops.blocks.distinct
  rw [pops.committed, committedTo, List.map_map] at distinct
  have member {sequence : Nat} (positive : 1 ≤ sequence)
      (readable : sequence ≤ state.delta.maxReadCursor) :
      sequence ∈ List.range' 1 state.delta.maxReadCursor := by
    rw [List.mem_range'_1]
    omega
  exact List.inj_on_of_nodup_map distinct (member positiveFirst readableFirst)
    (member positiveSecond readableSecond) same

theorem Handout.of_message (handout : Handout state) {k : Nat}
    {message : DeltaContent} (member : message ∈ state.messages k) :
    ∃ sequence, (k, sequence) ∈ state.taken ∧ message = state.delta.committed sequence := by
  rw [handout.messages k] at member
  obtain ⟨⟨owner, sequence⟩, filtered, rfl⟩ := List.mem_map.mp member
  obtain ⟨taken, owns⟩ := List.mem_filter.mp filtered
  cases of_decide_eq_true owns
  exact ⟨sequence, taken, rfl⟩

/-- While no popper takes an entry again, each message that a popper has is a
committed one with its length and its block, and no block is handed out twice. -/
theorem messages_handed_once (actions : List PopAction) {state : PopQueues}
    (runs : run step init actions = some state) (once : Guarded step TakenOnce init actions) :
    (∀ k, ∀ message ∈ state.messages k,
      message ∈ state.deltaCommitted ∧ message.data ≠ none) ∧
      (∀ k, ((state.messages k).map DeltaContent.data).Nodup) ∧
      ∀ j k, j ≠ k → ∀ first ∈ state.messages j, ∀ second ∈ state.messages k,
        first.data ≠ second.data := by
  have handout : Handout state :=
    run_invariant_guarded Handout TakenOnce Handout.step .init once runs
  have pops := handout.pops
  refine ⟨?_, ?_, ?_⟩
  · intro k message member
    obtain ⟨sequence, taken, rfl⟩ := handout.of_message member
    obtain ⟨positive, readable⟩ := handout.taken _ taken
    have committed : state.delta.committed sequence ∈ state.deltaCommitted := by
      rw [pops.committed]
      refine List.mem_map_of_mem ?_
      rw [List.mem_range'_1]
      omega
    obtain ⟨block, -, data⟩ := pops.blocks.allocated _ committed
    exact ⟨committed, by rw [data]; exact nofun⟩
  · intro k
    rw [handout.messages k, List.map_map]
    refine List.Nodup.map_on ?_
      (handout.distinct.of_map.filter _)
    intro first memberFirst second memberSecond same
    have takenFirst := List.mem_of_mem_filter memberFirst
    have takenSecond := List.mem_of_mem_filter memberSecond
    obtain ⟨positiveFirst, readableFirst⟩ := handout.taken first takenFirst
    obtain ⟨positiveSecond, readableSecond⟩ := handout.taken second takenSecond
    exact List.inj_on_of_nodup_map handout.distinct takenFirst takenSecond
      (pops.committed_data_inj positiveFirst readableFirst positiveSecond
        readableSecond same)
  · intro j k different first memberFirst second memberSecond same
    obtain ⟨sequence, takenFirst, rfl⟩ := handout.of_message memberFirst
    obtain ⟨other, takenSecond, rfl⟩ := handout.of_message memberSecond
    obtain ⟨positiveFirst, readableFirst⟩ := handout.taken _ takenFirst
    obtain ⟨positiveSecond, readableSecond⟩ := handout.taken _ takenSecond
    have equal := pops.committed_data_inj positiveFirst readableFirst
      positiveSecond readableSecond same
    have samePair := List.inj_on_of_nodup_map handout.distinct takenFirst
      takenSecond equal
    exact different (congrArg Prod.fst samePair)

def secondRegistration : List PopAction :=
  [.popper 1 (.register .load), .popper 1 (.register (.swap false)),
    .popper 1 (.register .load), .popper 1 (.register (.swap false)),
    .popper 1 (.register .load), .popper 1 (.register (.swap false)),
    .popper 1 (.register .check), .popper 1 (.register .store)]

def messageForTwo : List PopAction :=
  registration ++ secondRegistration ++ List.replicate 13 (.splitter .go) ++
  messageSteps

theorem messages_handed_first :
    ∃ state, run step init (messageForTwo ++ popperSteps 1) = some state ∧
      state.messages 0 = [⟨40, 16, some 0⟩] ∧
      ∀ message ∈ state.messages 0,
        message ∈ state.deltaCommitted ∧ message.data ≠ none := by
  have evaluated : (run step init (messageForTwo ++ popperSteps 1)).map
      (fun state => state.messages 0) = some [⟨40, 16, some 0⟩] := by
    decide +kernel
  obtain ⟨state, runs, seen⟩ := Option.map_eq_some_iff.mp evaluated
  have handed := messages_handed_once (messageForTwo ++ popperSteps 1) runs
    (by decide +kernel)
  exact ⟨state, runs, seen, handed.1 0⟩

/-- The second popper comes behind the first one, or both read the entry before one
of them clears it. -/
theorem message_handed_to_both :
    (∃ state, run step init (messageForTwo ++ popperSteps 1 ++
        List.replicate 4 (.popper 1 .go)) = some state ∧
      state.messages 0 = [⟨40, 16, some 0⟩] ∧
      state.messages 1 = [⟨0, 16, none⟩]) ∧
    ∃ state, run step init (messageForTwo ++
        List.replicate 4 (.popper 0 .go) ++ List.replicate 4 (.popper 1 .go)) =
          some state ∧
      state.messages 0 = [⟨40, 16, some 0⟩] ∧
      state.messages 1 = [⟨40, 16, some 0⟩] := by
  have behind : (run step init (messageForTwo ++ popperSteps 1 ++
      List.replicate 4 (.popper 1 .go))).map
        (fun state => (state.messages 0, state.messages 1)) =
      some ([⟨40, 16, some 0⟩], [⟨0, 16, none⟩]) := by
    decide +kernel
  have between : (run step init (messageForTwo ++
      List.replicate 4 (.popper 0 .go) ++ List.replicate 4 (.popper 1 .go))).map
        (fun state => (state.messages 0, state.messages 1)) =
      some ([⟨40, 16, some 0⟩], [⟨40, 16, some 0⟩]) := by
    decide +kernel
  obtain ⟨first, runsFirst, seenFirst⟩ := Option.map_eq_some_iff.mp behind
  obtain ⟨second, runsSecond, seenSecond⟩ := Option.map_eq_some_iff.mp between
  exact ⟨⟨first, runsFirst, Prod.mk.inj seenFirst⟩,
    second, runsSecond, Prod.mk.inj seenSecond⟩

end PopQueues

end MercuryFix
