import MercuryFix.PopQueues

/-!
# What the splitter publishes

The splitter gets an entry of delta without a block, and `malloc`s one for the
first message that it copies there.  It keeps the block until a message in it is
committed.  So no two committed messages share one.
-/

namespace MercuryFix

open ByteBlock TransitionSystem

open Disruptor hiding Ring step

section Committed

variable {Content : Type} {config : Config}
  {ring next : Disruptor.Ring Content}

def committedTo (ring : Disruptor.Ring Content) (count : Nat) : List Content :=
  (List.range' 1 count).map ring.committed

theorem committedTo_succ (ring : Disruptor.Ring Content) (count : Nat) :
    committedTo ring (count + 1) = committedTo ring count ++ [ring.committed (count + 1)] := by
  rw [committedTo, List.range'_1_concat, List.map_append, Nat.add_comm 1 count]
  rfl

theorem committedTo_congr {count : Nat}
    (same : ∀ sequence ≤ count, next.committed sequence = ring.committed sequence) :
    committedTo next count = committedTo ring count := by
  apply List.map_congr_left
  intro sequence member
  rw [List.mem_range'_1] at member
  exact same sequence (by omega)

theorem committedTo_mono {count later : Nat} (before : count ≤ later) :
    committedTo ring count <+: committedTo ring later := by
  refine ⟨(List.range' (1 + count) (later - count)).map ring.committed, ?_⟩
  rw [committedTo, committedTo, ← List.map_append, List.range'_append_1, Nat.add_sub_cancel' before]

theorem publish_committed {p : Nat} {action : PublisherAction Content}
    (moves : PublisherMove config ring p action next) (other : action ≠ .commit) :
    next.maxReadCursor = ring.maxReadCursor ∧
      next.committed = ring.committed := by
  cases moves with
  | turn | write => exact ⟨rfl, rfl⟩
  | commit => exact absurd rfl other

theorem publish_buffer {p : Nat} {action : PublisherAction Content}
    (moves : PublisherMove config ring p action next) (other : ∀ content, action ≠ .write content) :
    next.buffer = ring.buffer := by
  cases moves with
  | turn | commit => rfl
  | @write sequence content => exact absurd rfl (other content)

theorem commit_effect {p : Nat} (sound : Disruptor.Sound config ring)
    (steps : Disruptor.step config ring (.publish p .commit) = some next) :
    ∃ sequence, (ring.publishers p).held = some sequence ∧ sequence = ring.maxReadCursor + 1 ∧
      next.maxReadCursor = ring.maxReadCursor + 1 ∧
      next.committed = Function.update ring.committed sequence
        (ring.buffer (config.index sequence)) ∧
      (next.publishers p).held = none := by
  have moves : PublisherMove config ring p .commit next := publisherMove_of_step steps
  cases moves with
  | turn slowest writeCursor acquires => exact acquires.elim
  | @commit sequence adds =>
    refine ⟨sequence, by rw [adds]; rfl, sound.adding p sequence adds, rfl, rfl, ?_⟩
    rw [Disruptor.Ring.setPublisher_publishers, Function.update_self]
    rfl

theorem write_effect {p sequence : Nat} {content : Content}
    (holds : ring.publishers p = .holding sequence)
    (steps : Disruptor.step config ring (.publish p (.write content)) = some next) :
    (next.publishers p).held = some sequence ∧ next.buffer (config.index sequence) = content := by
  simp only [Disruptor.step, holds, publisherStep, Option.some.injEq] at steps
  rw [← steps]
  exact ⟨by rw [Disruptor.Ring.setEntry_publishers, holds]; rfl, Function.update_self _ _ _⟩

theorem await_effect {p sequence : Nat} (holds : (ring.publishers p).held = some sequence)
    (steps : Disruptor.step config ring (.publish p .await) = some next) :
    (next.publishers p).held = some sequence ∧ next.buffer = ring.buffer := by
  have moves : PublisherMove config ring p .await next := publisherMove_of_step steps
  cases moves with
  | turn slowest writeCursor acquires turns =>
    refine ⟨?_, rfl⟩
    rw [Disruptor.Ring.setPublisher_publishers, Function.update_self]
    exact turns.held sequence holds

theorem ask_effect {p : Nat} (steps : Disruptor.step config ring (.publish p .nextEntryBlocking) =
      some next) : (next.publishers p).held = none := by
  cases standing : ring.publishers p with
  | idle =>
    simp only [Disruptor.step, standing, publisherStep, Option.some.injEq] at steps
    rw [← steps, Disruptor.Ring.setPublisher_publishers, Function.update_self]
    rfl
  | scanning | claiming | holding | committing | adding =>
    simp [Disruptor.step, publisherStep, standing] at steps

theorem scan_unheld {p : Nat} (steps : Disruptor.step config ring (.publish p .scan) = some next) :
    (ring.publishers p).held = none := by
  cases standing : ring.publishers p with
  | scanning => rfl
  | idle | claiming | holding | committing | adding =>
    simp [Disruptor.step, publisherStep, standing] at steps

end Committed

namespace PopQueues

variable {state next : PopQueues}

theorem deltaEntry_holding {entry : DeltaContent} (holds : state.deltaEntry = some entry) :
    ∃ sequence, state.delta.publishers 0 = .holding sequence ∧
      state.delta.buffer (deltaConfig.index sequence) = entry := by
  unfold deltaEntry at holds
  split at holds
  · rename_i sequence standing
    cases holds
    exact ⟨sequence, standing, rfl⟩
  · cases holds

section Blank

variable {ring after : Disruptor.Ring DeltaContent} {low : Nat}

/-- The entries of delta are blank but for the readable ones from `low` on and the
one that the splitter holds. -/
def Blank (ring : Disruptor.Ring DeltaContent) (low : Nat) : Prop :=
  ∀ place, ring.buffer place = .zero ∨
    (∃ sequence, low ≤ sequence ∧ sequence ≤ ring.maxReadCursor ∧
      deltaConfig.index sequence = place) ∨
    ∃ sequence, (ring.publishers 0).held = some sequence ∧ deltaConfig.index sequence = place

theorem Blank.publish {action : PublisherAction DeltaContent}
    (blank : Blank ring low) (sound : Disruptor.Sound deltaConfig ring)
    (bound : low ≤ ring.maxReadCursor + 1) (moves : PublisherMove deltaConfig ring 0 action after) :
    Blank after low := by
  intro place
  cases moves with
  | turn slowest writeCursor acquires turns =>
    rcases blank place with zero | readable | ⟨sequence, holds, here⟩
    · exact .inl zero
    · exact .inr (.inl readable)
    · refine .inr (.inr ⟨sequence, ?_, here⟩)
      rw [Disruptor.Ring.setPublisher_publishers, Function.update_self]
      exact turns.held sequence holds
  | @write sequence content writes =>
    have held : (ring.publishers 0).held = some sequence := by
      rw [writes]
      rfl
    by_cases here : deltaConfig.index sequence = place
    · exact .inr (.inr ⟨sequence, held, here⟩)
    · rw [Disruptor.Ring.setEntry_buffer, Function.update_of_ne (Ne.symm here)]
      exact blank place
  | @commit sequence adds =>
    have following := sound.adding 0 sequence adds
    rcases blank place with zero | ⟨readable, lower, upper, here⟩ |
      ⟨held, holds, here⟩
    · exact .inl zero
    · exact .inr (.inl ⟨readable, lower, Nat.le_succ_of_le upper, here⟩)
    · rw [adds] at holds
      cases holds
      exact .inr (.inl ⟨sequence, following ▸ bound, following.le, here⟩)

theorem Blank.kept {later : Nat} (blank : Blank ring low) (lower : later ≤ low)
    (cursor : after.maxReadCursor = ring.maxReadCursor)
    (publisher : after.publishers 0 = ring.publishers 0)
    (buffer : after.buffer = ring.buffer) : Blank after later := by
  intro place
  rw [buffer, cursor, publisher]
  rcases blank place with zero | ⟨sequence, above, upper, here⟩ | held
  · exact .inl zero
  · exact .inr (.inl ⟨sequence, lower.trans above, upper, here⟩)
  · exact .inr (.inr held)

theorem Blank.cleared (blank : Blank ring low) (cursor : after.maxReadCursor = ring.maxReadCursor)
    (publisher : after.publishers 0 = ring.publishers 0)
    (buffer : after.buffer = Function.update ring.buffer (deltaConfig.index low) .zero) :
    Blank after (low + 1) := by
  intro place
  rw [buffer, cursor, publisher, Function.update_apply]
  split
  · exact .inl rfl
  · rename_i elsewhere
    rcases blank place with zero | ⟨sequence, lower, upper, rfl⟩ | held
    · exact .inl zero
    · have apart : sequence ≠ low := fun same => elsewhere (congrArg _ same)
      exact .inr (.inl ⟨sequence, by omega, upper, rfl⟩)
    · exact .inr (.inr held)

theorem Blank.acquired {sequence : Nat} (blank : Blank ring low)
    (unheld : (ring.publishers 0).held = none)
    (apart : ∀ readable, low ≤ readable → readable ≤ ring.maxReadCursor →
      deltaConfig.index readable ≠ deltaConfig.index sequence) :
    ring.buffer (deltaConfig.index sequence) = .zero := by
  rcases blank (deltaConfig.index sequence) with
    zero | ⟨readable, lower, upper, here⟩ | ⟨held, holds, -⟩
  · exact zero
  · exact absurd here (apart readable lower upper)
  · rw [unheld] at holds
    cases holds

end Blank

section Blocks

structure Own (state : PopQueues) (entry : DeltaContent) : Prop where
  empty : entry.data = none → entry.size = 0
  allocated : ∀ block, entry.data = some block → block < state.mallocs
  fresh : entry.data = none ∨ entry.data ∉ state.deltaCommitted.map DeltaContent.data

/-- The blocks of the committed messages and of the splitter's entry. -/
structure Blocks (state : PopQueues) : Prop where
  allocated : ∀ message ∈ state.deltaCommitted, ∃ block < state.mallocs, message.data = some block
  distinct : (state.deltaCommitted.map DeltaContent.data).Nodup
  held : ∀ sequence, (state.delta.publishers 0).held = some sequence →
    Own state (state.delta.buffer (deltaConfig.index sequence))
  filled : ∀ total, state.splitter = .splitting (some total) →
    ∀ sequence, (state.delta.publishers 0).held = some sequence →
      (state.delta.buffer (deltaConfig.index sequence)).size = total ∧
      (state.delta.buffer (deltaConfig.index sequence)).data ≠ none
  committing : ∀ message, state.splitter = .committingDelta message →
    ∃ sequence, (state.delta.publishers 0).held = some sequence ∧
      state.delta.buffer (deltaConfig.index sequence) = message ∧
      message.data ≠ none

theorem Blocks.init : Blocks init where
  allocated := nofun
  distinct := .nil
  held := nofun
  filled := nofun
  committing := nofun

theorem Own.zero : Own state .zero := ⟨fun _ => rfl, nofun, .inl rfl⟩

theorem Own.filled {entry : DeltaContent} {total : Nat} (own : Own state entry)
    (blocks : Blocks state) (positive : 0 < total) {ring : Disruptor.Ring DeltaContent}
    {place : Publishing} :
    Own { state with
      delta := ring
      mallocs := state.mallocs + 1
      splitter := place } (PopQueues.filled state.mallocs total entry) ∧
      (PopQueues.filled state.mallocs total entry).size = total ∧
      (PopQueues.filled state.mallocs total entry).data ≠ none := by
  unfold PopQueues.filled
  split
  · refine ⟨⟨nofun, ?_, .inr ?_⟩, rfl, nofun⟩
    · intro block same
      cases same
      exact Nat.lt_succ_self _
    · intro member
      obtain ⟨message, committed, same⟩ := List.mem_map.mp member
      obtain ⟨block, bound, data⟩ := blocks.allocated message committed
      cases same.symm.trans data
      omega
  · rename_i enough
    have present : entry.data ≠ none := by
      intro absent
      have empty := own.empty absent
      omega
    refine ⟨⟨fun absent => absurd absent present, ?_, own.fresh⟩, rfl, present⟩
    intro block same
    exact Nat.lt_succ_of_lt (own.allocated block same)

theorem Blocks.kept (blocks : Blocks state) (mallocs : next.mallocs = state.mallocs)
    (committed : next.deltaCommitted = state.deltaCommitted)
    (splitter : next.splitter = state.splitter)
    (publisher : next.delta.publishers 0 = state.delta.publishers 0)
    (entry : ∀ sequence, (state.delta.publishers 0).held = some sequence →
      next.delta.buffer (deltaConfig.index sequence) =
        state.delta.buffer (deltaConfig.index sequence)) :
    Blocks next where
  allocated := by
    rw [mallocs, committed]
    exact blocks.allocated
  distinct := by
    rw [committed]
    exact blocks.distinct
  held := by
    intro sequence holds
    rw [publisher] at holds
    obtain ⟨empty, allocated, fresh⟩ := blocks.held sequence holds
    rw [entry sequence holds]
    exact ⟨empty, mallocs ▸ allocated, committed ▸ fresh⟩
  filled := by
    intro total standing sequence holds
    rw [publisher] at holds
    rw [entry sequence holds]
    exact blocks.filled total (splitter ▸ standing) sequence holds
  committing := by
    intro message standing
    obtain ⟨sequence, holds, content, present⟩ := blocks.committing message (splitter ▸ standing)
    rw [publisher]
    exact ⟨sequence, holds, (entry sequence holds).trans content, present⟩

theorem Blocks.elsewhere (blocks : Blocks state)
    {echo : Disruptor.Ring (List UInt8)} {place : Publishing}
    {echoCommitted : List EchoMessage}
    (goes : place = state.splitter ∨ (∀ total, place ≠ .splitting (some total)) ∧
      ∀ message, place ≠ .committingDelta message) :
    Blocks { state with
      echo := echo
      splitter := place
      echoCommitted := echoCommitted } where
  allocated := blocks.allocated
  distinct := blocks.distinct
  held := fun sequence holds =>
    ⟨(blocks.held sequence holds).empty, (blocks.held sequence holds).allocated,
      (blocks.held sequence holds).fresh⟩
  filled := by
    intro total standing
    rcases goes with rfl | ⟨unfilled, -⟩
    · exact blocks.filled total standing
    · exact absurd standing (unfilled total)
  committing := by
    intro message standing
    rcases goes with rfl | ⟨-, uncommitted⟩
    · exact blocks.committing message standing
    · exact absurd standing (uncommitted message)

theorem Blocks.splitterStep (blocks : Blocks state)
    (sound : Disruptor.Sound deltaConfig state.delta)
    (acquires : ∀ ring sequence,
      Disruptor.step deltaConfig state.delta (.publish 0 .scan) = some ring →
      (ring.publishers 0).held = some sequence →
      state.delta.buffer (deltaConfig.index sequence) = .zero)
    {input : SplitterInput} (steps : state.splitterStep input = some next) :
    Blocks next := by
  cases splitterStep_moves steps with
  | @asksDelta first ring standing moves =>
    have unheld : (ring.publishers 0).held = none := ask_effect moves
    refine ⟨blocks.allocated, blocks.distinct, ?_, nofun, nofun⟩
    intro sequence holds
    cases unheld.symm.trans holds
  | @scansDelta first ring place standing moves goes =>
    have unfilled : (∀ total, place ≠ .splitting (some total)) ∧
        ∀ message, place ≠ .committingDelta message := by
      rcases goes with rfl | ⟨-, rfl | rfl⟩ <;> exact ⟨nofun, nofun⟩
    refine ⟨blocks.allocated, blocks.distinct, ?_, fun total same => absurd same (unfilled.1 total),
      fun message same => absurd same (unfilled.2 message)⟩
    intro sequence holds
    have unchanged := publish_buffer (publisherMove_of_step moves) nofun
    simp only [unchanged, acquires ring sequence moves holds]
    exact Own.zero
  | @fills before total entry ring standing holds positive small moves =>
    obtain ⟨sequence, holding, rfl⟩ := deltaEntry_holding holds
    obtain ⟨held, content⟩ := write_effect holding moves
    have own := blocks.held sequence (by rw [holding]; rfl)
    obtain ⟨ownAfter, size, present⟩ := own.filled blocks positive
    refine ⟨?_, blocks.distinct, ?_, ?_, nofun⟩
    · intro message member
      obtain ⟨block, bound, data⟩ := blocks.allocated message member
      exact ⟨block, Nat.lt_succ_of_lt bound, data⟩
    · intro other same
      cases held.symm.trans same
      simp only [content]
      exact ownAfter
    · intro other standing sequence same
      cases standing
      cases held.symm.trans same
      simp only [content]
      exact ⟨size, present⟩
  | @delivers total msgtypeOffset entry ring standing holds moves =>
    obtain ⟨sequence, holding, rfl⟩ := deltaEntry_holding holds
    obtain ⟨held, content⟩ := write_effect holding moves
    have heldBefore : (state.delta.publishers 0).held = some sequence := by
      rw [holding]
      rfl
    have own := blocks.held sequence heldBefore
    obtain ⟨size, present⟩ := blocks.filled total standing sequence heldBefore
    refine ⟨blocks.allocated, blocks.distinct, ?_, nofun, ?_⟩
    · intro other same
      cases held.symm.trans same
      simp only [content]
      exact ⟨own.empty, own.allocated, own.fresh⟩
    · intro message same
      cases same
      exact ⟨sequence, held, content, present⟩
  | @awaitsDelta message ring standing moves =>
    obtain ⟨sequence, heldBefore, content, present⟩ := blocks.committing message standing
    obtain ⟨held, buffer⟩ := await_effect heldBefore moves
    have own := blocks.held sequence heldBefore
    refine ⟨blocks.allocated, blocks.distinct, ?_, ?_, ?_⟩
    · intro other same
      cases held.symm.trans same
      simp only [buffer]
      exact ⟨own.empty, own.allocated, own.fresh⟩
    · intro total other
      cases standing.symm.trans other
    · intro other same
      cases standing.symm.trans same
      exact ⟨sequence, held, by simp only [buffer, content], present⟩
  | @commitsDelta message ring standing moves =>
    obtain ⟨sequence, heldBefore, content, present⟩ := blocks.committing message standing
    obtain ⟨other, holds, -, -, -, unheld⟩ := commit_effect sound moves
    have own := blocks.held sequence heldBefore
    rw [content] at own
    obtain ⟨block, data⟩ := Option.ne_none_iff_exists'.mp present
    refine ⟨?_, ?_, ?_, nofun, nofun⟩
    · intro other member
      rcases List.mem_append.mp member with earlier | last
      · exact blocks.allocated other earlier
      · cases List.mem_singleton.mp last
        exact ⟨block, own.allocated block data, data⟩
    · simp only [List.map_append, List.map_singleton]
      refine List.nodup_append.mpr ⟨blocks.distinct, by simp, ?_⟩
      intro first earlier last member same
      cases List.mem_singleton.mp member
      exact own.fresh.elim present fun fresh => fresh (same ▸ earlier)
    · intro later same
      cases unheld.symm.trans same
  | asksEcho standing moves => exact blocks.elsewhere (.inr ⟨nofun, nofun⟩)
  | scansEcho standing moves goes =>
    refine blocks.elsewhere ?_
    rcases goes with rfl | rfl
    · exact .inl standing.symm
    · exact .inr ⟨nofun, nofun⟩
  | deliversSession standing holds length offset fits moves =>
    exact blocks.elsewhere (.inr ⟨nofun, nofun⟩)
  | awaitsEcho standing moves => exact blocks.elsewhere (.inl rfl)
  | commitsEcho standing moves => exact blocks.elsewhere (.inr ⟨nofun, nofun⟩)

theorem splitterStep_committed (blocks : Blocks state)
    (sound : Disruptor.Sound deltaConfig state.delta)
    (committed : state.deltaCommitted = committedTo state.delta state.delta.maxReadCursor)
    {input : SplitterInput} (steps : state.splitterStep input = some next) :
    next.deltaCommitted = committedTo next.delta next.delta.maxReadCursor := by
  have kept {action : PublisherAction DeltaContent} {ring : Disruptor.Ring DeltaContent}
      (moves : Disruptor.step deltaConfig state.delta (.publish 0 action) =
        some ring) (other : action ≠ .commit) :
      state.deltaCommitted = committedTo ring ring.maxReadCursor := by
    obtain ⟨cursor, same⟩ := publish_committed (publisherMove_of_step moves) other
    rw [committed, cursor]
    exact (committedTo_congr fun sequence _ => congrFun same sequence).symm
  cases splitterStep_moves steps with
  | asksDelta standing moves | scansDelta standing moves
  | fills standing holds positive small moves | delivers standing holds moves
  | awaitsDelta standing moves => exact kept moves nofun
  | @commitsDelta message ring standing moves =>
    obtain ⟨sequence, holds, following, cursor, commits, -⟩ := commit_effect sound moves
    obtain ⟨other, held, content, -⟩ := blocks.committing message standing
    cases holds.symm.trans held
    change state.deltaCommitted ++ [message] = committedTo ring ring.maxReadCursor
    rw [cursor, committedTo_succ, ← following, commits, Function.update_self, content, committed]
    congr 1
    refine (committedTo_congr fun earlier before => ?_).symm
    rw [commits]
    exact Function.update_of_ne (by omega) _ _
  | asksEcho | scansEcho | deliversSession | awaitsEcho | commitsEcho =>
    exact committed

end Blocks

end PopQueues

end MercuryFix
