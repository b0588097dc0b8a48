import MercuryFix.OutgoingEntries

/-!
# The merge of the outgoing queues

The pusher thread numbers the messages of the three queues one after the
other, stores each of them under its number and writes them to the sink in
this order.
-/

namespace MercuryFix

open ByteBlock TransitionSystem

open Disruptor hiding Ring step

def mergedTexts (args : PusherArgs) (first : Nat)
    (messages : List (Queue × PushRequest)) : List (List UInt8) :=
  messages.mapIdx fun index message =>
    completedText args message.2.msgType message.2.data ((first + index + 1) % 2 ^ 64)

def mergedRecords (first : Nat) (messages : List (Queue × PushRequest)) :
    List SentRecord :=
  messages.mapIdx fun index message =>
    message.2.record ((first + index + 1) % 2 ^ 64)

theorem mergedTexts_concat (args : PusherArgs) (first : Nat)
    (messages : List (Queue × PushRequest)) (message : Queue × PushRequest) :
    mergedTexts args first (messages ++ [message]) = mergedTexts args first messages ++
        [completedText args message.2.msgType message.2.data
          ((first + messages.length + 1) % 2 ^ 64)] :=
  List.mapIdx_concat

theorem mergedRecords_concat (first : Nat)
    (messages : List (Queue × PushRequest)) (message : Queue × PushRequest) :
    mergedRecords first (messages ++ [message]) =
      mergedRecords first messages ++ [message.2.record ((first + messages.length + 1) % 2 ^ 64)] :=
  List.mapIdx_concat

def ofQueue (queue : Queue) (messages : List (Queue × PushRequest)) :
    List PushRequest :=
  (messages.filter fun message => message.1 = queue).map (·.2)

theorem ofQueue_concat (queue : Queue) (messages : List (Queue × PushRequest))
    (message : Queue × PushRequest) :
    ofQueue queue (messages ++ [message]) = ofQueue queue messages ++
      if message.1 = queue then [message.2] else [] := by
  rw [ofQueue, List.filter_append, List.map_append]
  by_cases same : message.1 = queue <;> simp [ofQueue, same]

/-- The completed messages of a queue that wait for `do_writev`. -/
structure Draining (ring : Disruptor.Ring (List UInt8))
    (reader : Reader (List UInt8)) (vdata : List IoVec)
    (pending : List (List UInt8)) : Prop where
  bounded : reader.next ≤ reader.limit + 1
  cursor : ∃ cursor, ring.entryProcessorCursors 0 = some cursor ∧
    protectedFrom cursor ≤ reader.limit ∧
    ∀ iov ∈ vdata, protectedFrom cursor ≤ iov.sequence ∧ iov.sequence < reader.next
  texts : vdata.map (fun iov =>
    window (ring.contents iov.sequence) iov.start iov.length) = pending

theorem Draining.publish {config : Config} {p : Nat} {action : PublisherAction (List UInt8)}
    {ring next : Disruptor.Ring (List UInt8)} {reader : Reader (List UInt8)}
    {vdata : List IoVec} {pending : List (List UInt8)}
    (draining : Draining ring reader vdata pending)
    (consumed : Consumed config ring reader)
    (moves : PublisherMove config ring p action next) :
    Draining next reader vdata pending where
  bounded := draining.bounded
  cursor := by
    rw [moves.cursors_eq]
    exact draining.cursor
  texts := by
    obtain ⟨cursor, -, -, inside⟩ := draining.cursor
    have bound := consumed.next_le
    rw [← draining.texts]
    apply List.map_congr_left
    intro iov member
    have before := (inside iov member).2
    rw [moves.contents_eq consumed.sound (by omega)]

theorem Draining.complete {config : Config}
    {ring next : Disruptor.Ring (List UInt8)} {reader : Reader (List UInt8)}
    {vdata : List IoVec} {pending : List (List UInt8)}
    {text content : List UInt8} {start length : Nat}
    (draining : Draining ring reader vdata pending)
    (consumed : Consumed config ring reader)
    (readable : reader.next ≤ reader.limit)
    (cursors : next.entryProcessorCursors = ring.entryProcessorCursors)
    (others : ∀ sequence, sequence ≠ reader.next → next.contents sequence = ring.contents sequence)
    (here : window (next.contents reader.next) start length = text) :
    Draining next (reader.advance content)
      (vdata ++ [⟨reader.next, start, length⟩]) (pending ++ [text]) where
  bounded := Nat.succ_le_succ readable
  cursor := by
    obtain ⟨cursor, present, bound, inside⟩ := draining.cursor
    obtain ⟨same, presentSame, lower, -⟩ := consumed.cursor
    cases present.symm.trans presentSame
    refine ⟨cursor, by rw [cursors]; exact present, bound, ?_⟩
    intro iov member
    rcases List.mem_append.mp member with earlier | last
    · exact ⟨(inside iov earlier).1, Nat.lt_succ_of_lt (inside iov earlier).2⟩
    · rw [List.mem_singleton.mp last]
      exact ⟨lower, Nat.lt_succ_self _⟩
  texts := by
    obtain ⟨cursor, -, -, inside⟩ := draining.cursor
    have earlier : vdata.map (fun iov =>
        window (next.contents iov.sequence) iov.start iov.length) =
        pending := by
      rw [← draining.texts]
      apply List.map_congr_left
      intro iov member
      rw [others iov.sequence (inside iov member).2.ne]
    rw [List.map_append, earlier, List.map_singleton, here]

def RoundOk (rings : Queue → Disruptor.Ring (List UInt8))
    (readers : Queue → Reader (List UInt8)) (vdata : List IoVec)
    (pending : List (List UInt8)) : Round → Prop
  | .looking _ => vdata = []
  | .limiting queue => vdata = [] ∧ (readers queue).sighted = true ∧
      (readers queue).next ≤ (rings queue).maxReadCursor
  | .draining queue => Draining (rings queue) (readers queue) vdata pending
  | .releasing queue => vdata = [] ∧
      Draining (rings queue) (readers queue) [] [] ∧
      (readers queue).limit < (readers queue).next

/-- The invariant of the merge: `messages` are the completed ones, and the
first `written` of them are in the sink. -/
structure Merged (args : PusherArgs) (iovMax first : Nat) (state : Outgoing)
    (readers : Queue → Reader (List UInt8))
    (messages : List (Queue × PushRequest)) (written : Nat) : Prop where
  queues : ∀ queue, QueueOk queue (state.rings queue) state.callers
    (state.committed queue) (readers queue)
  number : state.msgSeqNumber % 2 ^ 64 = (first + messages.length) % 2 ^ 64
  stored : state.stored = mergedRecords first messages
  ordered : ∀ queue, ofQueue queue messages =
    (state.committed queue).take ((readers queue).next - 1)
  sink : state.sink = ((mergedTexts args first messages).take written).flatten
  remaining : written + state.vdata.length = messages.length
  room : state.vdata.length ≤ iovMax
  round : RoundOk state.rings readers state.vdata
    ((mergedTexts args first messages).drop written) state.round

namespace Merged

variable {args : PusherArgs} {first iovMax written : Nat} {state next : Outgoing}
  {readers : Queue → Reader (List UInt8)}
  {messages : List (Queue × PushRequest)}

theorem init (args : PusherArgs) (iovMax first : Nat) :
    Merged args iovMax first (Outgoing.init first) (fun _ => .begin 0 1) [] 0 where
  queues := QueueOk.registered
  number := rfl
  stored := rfl
  ordered := fun _ => rfl
  sink := rfl
  remaining := rfl
  room := Nat.zero_le _
  round := rfl

section Callers

variable {p : Nat} {queue : Queue} {ring : Disruptor.Ring (List UInt8)}
  {action : PublisherAction (List UInt8)}

section

variable (merged : Merged args iovMax first state readers messages written)
include merged

theorem publish {callers : Nat → Caller} {committed : Queue → List PushRequest}
    (moves : PublisherMove queue.config (state.rings queue) p action ring)
    (queues : ∀ other, QueueOk other
      (Function.update state.rings queue ring other) callers (committed other)
      (readers other))
    (grows : ∀ other, state.committed other <+: committed other) :
    Merged args iovMax first { state with
        rings := Function.update state.rings queue ring
        callers := callers
        committed := committed } readers messages written where
  queues := queues
  number := merged.number
  stored := merged.stored
  ordered := by
    intro other
    obtain ⟨added, whole⟩ := grows other
    have ok := merged.queues other
    have count := ok.count
    have bound := ok.consumed.next_le
    change ofQueue other messages = (committed other).take _
    rw [merged.ordered other, ← whole, List.take_append_of_le_length (by omega)]
  sink := merged.sink
  remaining := merged.remaining
  room := merged.room
  round := by
    have draining {other : Queue} {vdata : List IoVec} {pending : List (List UInt8)}
        (before : Draining (state.rings other) (readers other) vdata pending) :
        Draining (Function.update state.rings queue ring other) (readers other) vdata pending := by
      rcases eq_or_ne other queue with rfl | apart
      · rw [Function.update_self]
        exact before.publish (merged.queues other).consumed moves
      · rwa [Function.update_of_ne apart]
    have roundOk := merged.round
    cases standing : state.round with
    | looking =>
      rw [standing] at roundOk
      exact roundOk
    | limiting other =>
      rw [standing] at roundOk
      obtain ⟨empty, sighted, readable⟩ := roundOk
      refine ⟨empty, sighted, readable.trans ?_⟩
      dsimp only
      rcases eq_or_ne other queue with rfl | apart
      · rw [Function.update_self]
        exact moves.maxReadCursor_le
      · rw [Function.update_of_ne apart]
    | draining =>
      rw [standing] at roundOk
      exact draining roundOk
    | releasing =>
      rw [standing] at roundOk
      exact ⟨roundOk.1, draining roundOk.2.1, roundOk.2.2⟩

theorem turn (steps : state.onRing queue (.publish p action) = some next)
    (acquires : action.Acquires) :
    Merged args iovMax first next readers messages written := by
  obtain ⟨ring, ringSteps, rfl⟩ := Outgoing.onRing_eq_some.mp steps
  have moves := publisherMove_of_step ringSteps
  refine merged.publish moves (fun other => ?_) fun other => List.prefix_rfl
  rcases eq_or_ne other queue with rfl | apart
  · rw [Function.update_self]
    exact (merged.queues other).turn moves acquires
  · rw [Function.update_of_ne apart]
    exact merged.queues other

theorem acquire {request : PushRequest} (accepts : queue.Accepts request)
    (steps : state.acquire p queue request = some next) :
    Merged args iovMax first next readers messages written := by
  obtain ⟨behind, onRing, rfl⟩ := Option.map_eq_some_iff.mp steps
  obtain ⟨ring, ringSteps, rfl⟩ := Outgoing.onRing_eq_some.mp onRing
  have moves := publisherMove_of_step ringSteps
  -- The new caller has not filled its entry.
  have enters {other : Queue} {ring : Disruptor.Ring (List UInt8)}
      (ok : QueueOk other ring state.callers (state.committed other) (readers other)) :
      QueueOk other ring (Function.update state.callers p
        (.inside queue request false)) (state.committed other)
        (readers other) := by
    apply ok.withCallers
    · intro q asked filled inside
      rw [Function.update_apply] at inside
      split_ifs at inside
      · cases inside
        exact accepts
      · exact ok.accepts q asked filled inside
    · intro q asked inside
      rw [Function.update_apply] at inside
      split_ifs at inside
      · cases inside
      · exact inside
  refine merged.publish moves (fun other => ?_) fun other => List.prefix_rfl
  rcases eq_or_ne other queue with rfl | apart
  · rw [Function.update_self]
    exact enters ((merged.queues other).turn moves trivial)
  · rw [Function.update_of_ne apart]
    exact enters (merged.queues other)

theorem elsewhere {other : Queue} {now : Caller}
    (apart : ∀ request filled, now ≠ .inside other request filled) :
    QueueOk other (state.rings other) (Function.update state.callers p now)
      (state.committed other) (readers other) := by
  have ok := merged.queues other
  apply ok.withCallers
  · intro q asked filled inside
    rw [Function.update_apply] at inside
    split_ifs at inside
    · exact (apart asked filled inside).elim
    · exact ok.accepts q asked filled inside
  · intro q asked inside
    rw [Function.update_apply] at inside
    split_ifs at inside
    · exact (apart asked true inside).elim
    · exact inside

theorem fill {request : PushRequest} {malloced : List UInt8}
    (inside : state.callers p = .inside queue request false)
    (steps : state.fill p queue request malloced = some next) :
    Merged args iovMax first next readers messages written := by
  rw [Outgoing.fill] at steps
  split at steps
  case h_2 => cases steps
  case h_1 sequence holds =>
    simp only [Option.bind_eq_bind, Option.bind_eq_some_iff, Option.some.injEq] at steps
    obtain ⟨block, blocks, filled, fills, behind, onRing, rfl⟩ := steps
    obtain ⟨ring, ringSteps, rfl⟩ := Outgoing.onRing_eq_some.mp onRing
    have ok := merged.queues queue
    have accepts := ok.accepts p request false inside
    obtain ⟨room, sized⟩ := Queue.room_of_fits accepts.toFits (ok.sized _) blocks
    obtain ⟨buffer, fillsBuffer, prepared, length⟩ := fillEntry_prepared accepts.short room
    cases fills.symm.trans fillsBuffer
    have written : ring = (state.rings queue).setEntry queue.config sequence filled := by
      simp only [Disruptor.step, publisherStep, holds, Option.some.injEq] at ringSteps
      exact ringSteps.symm
    refine merged.publish (publisherMove_of_step ringSteps) (fun other => ?_)
      fun other => List.prefix_rfl
    rcases eq_or_ne other queue with rfl | apart
    · rw [Function.update_self, written]
      exact ok.write holds inside prepared (sized.congr length)
    · rw [Function.update_of_ne apart]
      apply merged.elsewhere
      rintro asked filled ⟨rfl, _⟩
      exact apart rfl

theorem commit {request : PushRequest} (inside : state.callers p = .inside queue request true)
    (steps : state.commit p queue request = some next) :
    Merged args iovMax first next readers messages written := by
  obtain ⟨behind, onRing, rfl⟩ := Option.map_eq_some_iff.mp steps
  obtain ⟨ring, ringSteps, rfl⟩ := Outgoing.onRing_eq_some.mp onRing
  have moves := publisherMove_of_step ringSteps
  refine merged.publish moves (fun other => ?_) fun other => ?_
  · rcases eq_or_ne other queue with rfl | apart
    · rw [Function.update_self, Function.update_self]
      exact (merged.queues other).commit inside moves
    · rw [Function.update_of_ne apart, Function.update_of_ne apart]
      apply merged.elsewhere
      simp
  · rcases eq_or_ne other queue with rfl | apart
    · rw [Function.update_self]
      exact List.prefix_append _ _
    · exact (Function.update_of_ne apart _ _).symm ▸ List.prefix_rfl

end

end Callers

section Thread

variable {queue : Queue} {ring : Disruptor.Ring (List UInt8)}
  {reader : Reader (List UInt8)}

theorem reader_eq (merged : Merged args iovMax first state readers messages written)
    (queue : Queue) : state.reader queue = some (readers queue) := by
  rw [Outgoing.reader, (merged.queues queue).consumed.reading]

theorem length_mergedTexts (args : PusherArgs) (first : Nat)
    (messages : List (Queue × PushRequest)) :
    (mergedTexts args first messages).length = messages.length := by
  rw [mergedTexts, List.length_mapIdx]

section

variable (merged : Merged args iovMax first state readers messages written)
include merged

theorem nothing_pending (empty : state.vdata = []) :
    (mergedTexts args first messages).drop written = [] := by
  have remaining := merged.remaining
  rw [empty, List.length_nil] at remaining
  apply List.drop_eq_nil_of_le
  rw [length_mergedTexts]
  omega

theorem rearrange {round : Round}
    (ok : QueueOk queue ring state.callers (state.committed queue) reader)
    (same : reader.next = (readers queue).next)
    (roundOk : RoundOk (Function.update state.rings queue ring)
      (Function.update readers queue reader) state.vdata
      ((mergedTexts args first messages).drop written) round) :
    Merged args iovMax first { state with
        rings := Function.update state.rings queue ring
        round := round }
      (Function.update readers queue reader) messages written where
  queues := by
    intro other
    rcases eq_or_ne other queue with rfl | apart
    · simpa only [Function.update_self] using ok
    · simpa only [Function.update_of_ne apart] using merged.queues other
  number := merged.number
  stored := merged.stored
  ordered := by
    intro other
    rcases eq_or_ne other queue with rfl | apart
    · rw [Function.update_self, same]
      exact merged.ordered other
    · rw [Function.update_of_ne apart]
      exact merged.ordered other
  sink := merged.sink
  remaining := merged.remaining
  room := merged.room
  round := roundOk

theorem setProcessor_ok (consumed : Consumed queue.config
      ((state.rings queue).setProcessor 0 (.reading reader)) reader) :
    QueueOk queue ((state.rings queue).setProcessor 0 (.reading reader))
      state.callers (state.committed queue) reader :=
  QueueOk.of_tracked ((merged.queues queue).tracked.setProcessor consumed)
    (merged.queues queue).sized (merged.queues queue).accepts
    (merged.queues queue).accepted

theorem look_idle (standing : state.round = .looking queue)
    (idle : (state.rings queue).maxReadCursor < (readers queue).next) :
    ∃ next, state.threadStep args iovMax .look (.looking queue) = some next ∧
      Merged args iovMax first next readers messages written ∧
      next.committed = state.committed ∧
      next.round = .looking queue.following := by
  have roundOk := merged.round
  rw [standing] at roundOk
  have looks := (merged.queues queue).consumed.look_idle idle
  have kept : Merged args iovMax first { state with
        rings := Function.update state.rings queue (state.rings queue)
        round := .looking queue.following }
      (Function.update readers queue (readers queue)) messages written :=
    merged.rearrange (merged.queues queue) rfl roundOk
  rw [Function.update_eq_self, Function.update_eq_self] at kept
  refine ⟨_, ?_, kept, rfl, rfl⟩
  simp [Outgoing.threadStep, merged.reader_eq queue, Outgoing.onRing, looks,
    if_neg (not_le.mpr idle)]

theorem look (standing : state.round = .looking queue)
    (readable : (readers queue).next ≤ (state.rings queue).maxReadCursor) :
    ∃ next reader, state.threadStep args iovMax .look (.looking queue) = some next ∧
      Merged args iovMax first next (Function.update readers queue reader) messages written ∧
      next.committed = state.committed ∧ next.round = .limiting queue ∧
      reader.next = (readers queue).next := by
  have roundOk := merged.round
  rw [standing] at roundOk
  obtain ⟨looks, behind⟩ := (merged.queues queue).consumed.look readable
  refine ⟨_, _, ?_, merged.rearrange (merged.setProcessor_ok behind) rfl
    (show RoundOk _ _ _ _ (.limiting queue) from ⟨roundOk, ?_, ?_⟩), rfl, rfl,
    rfl⟩
  · simp [Outgoing.threadStep, merged.reader_eq queue, Outgoing.onRing, looks, if_pos readable]
  · rw [Function.update_self]
  · rw [Function.update_self, Function.update_self]
    exact readable

theorem limit (standing : state.round = .limiting queue) :
    ∃ next reader, state.threadStep args iovMax .limit (.limiting queue) = some next ∧
      Merged args iovMax first next (Function.update readers queue reader) messages written ∧
      next.committed = state.committed ∧ next.round = .draining queue ∧
      reader.next = (readers queue).next ∧
      reader.limit = (state.committed queue).length := by
  have ok := merged.queues queue
  have roundOk := merged.round
  rw [standing] at roundOk
  obtain ⟨empty, sighted, readable⟩ := roundOk
  obtain ⟨limits, behind⟩ := ok.consumed.limit sighted
  refine ⟨_, _, ?_, merged.rearrange (merged.setProcessor_ok behind) rfl
    (show RoundOk _ _ _ _ (.draining queue) from ?_), rfl, rfl, rfl,
    ok.count.symm⟩
  · simp [Outgoing.threadStep, Outgoing.onRing, limits]
  · obtain ⟨cursor, present, bound, -⟩ := ok.consumed.cursor
    change Draining (Function.update state.rings queue _ queue)
      (Function.update readers queue _ queue) state.vdata _
    rw [Function.update_self, Function.update_self, empty, merged.nothing_pending empty]
    exact ⟨Nat.le_succ_of_le readable, ⟨cursor, present, bound.trans readable, by simp⟩, rfl⟩

theorem gather_eq (standing : state.round = .draining queue) :
    state.gather queue = ((mergedTexts args first messages).drop written).flatten := by
  have draining := merged.round
  rw [standing] at draining
  obtain ⟨-, ⟨cursor, present, -, inside⟩, texts⟩ := draining
  have consumed := (merged.queues queue).consumed
  have bound := consumed.next_le
  rw [← texts, ← List.flatMap_def, Outgoing.gather]
  apply List.flatMap_congr
  intro iov member
  obtain ⟨lower, upper⟩ := inside iov member
  rw [consumed.entry present lower (by omega)]

theorem writev {round : Round} (standing : state.round = .draining queue)
    (roundOk : RoundOk state.rings readers [] [] round) :
    Merged args iovMax first { state with
        sink := state.sink ++ state.gather queue
        vdata := []
        round := round } readers messages messages.length where
  queues := merged.queues
  number := merged.number
  stored := merged.stored
  ordered := merged.ordered
  sink := by
    dsimp only
    rw [merged.gather_eq standing, merged.sink, ← List.flatten_append,
      List.take_append_drop, ← length_mergedTexts args first, List.take_length]
  remaining := rfl
  room := Nat.zero_le _
  round := by
    dsimp only
    rwa [← length_mergedTexts args first, List.drop_length]

theorem flush (standing : state.round = .draining queue) (full : state.vdata.length = iovMax) :
    ∃ next, state.threadStep args iovMax .flush (.draining queue) = some next ∧
      Merged args iovMax first next readers messages messages.length ∧
      next.committed = state.committed ∧ next.round = .draining queue ∧
      next.vdata = [] := by
  have draining := merged.round
  rw [standing] at draining
  obtain ⟨bounded, ⟨cursor, present, bound, -⟩, -⟩ := draining
  have flushed := merged.writev standing
    (show RoundOk state.rings readers [] [] (.draining queue) from
      ⟨bounded, ⟨cursor, present, bound, by simp⟩, rfl⟩)
  refine ⟨_, ?_, flushed, rfl, rfl, rfl⟩
  rw [Outgoing.threadStep, if_pos full, standing]

theorem finish (standing : state.round = .draining queue)
    (done : (readers queue).limit < (readers queue).next) (room : state.vdata.length < iovMax) :
    ∃ next, state.threadStep args iovMax .finish (.draining queue) = some next ∧
      Merged args iovMax first next readers messages messages.length ∧
      next.committed = state.committed ∧ next.round = .releasing queue := by
  have draining := merged.round
  rw [standing] at draining
  obtain ⟨bounded, ⟨cursor, present, bound, -⟩, -⟩ := draining
  have finished := merged.writev standing
    (show RoundOk state.rings readers [] [] (.releasing queue) from
      ⟨rfl, ⟨bounded, ⟨cursor, present, bound, by simp⟩, rfl⟩, done⟩)
  refine ⟨_, ?_, finished, rfl, rfl⟩
  simp [Outgoing.threadStep, merged.reader_eq queue, done, room]

theorem release (standing : state.round = .releasing queue) :
    ∃ next, state.threadStep args iovMax .release (.releasing queue) = some next ∧
      Merged args iovMax first next readers messages written ∧
      next.committed = state.committed ∧
      next.round = .looking queue.following := by
  have ok := merged.queues queue
  have roundOk := merged.round
  rw [standing] at roundOk
  obtain ⟨empty, ⟨-, ⟨cursor, present, bound, -⟩, -⟩, done⟩ := roundOk
  obtain ⟨releases, consumed⟩ := ok.consumed.release present (bound.trans (le_protectedFrom _)) done
  have released := merged.rearrange (ok.process consumed rfl rfl rfl ok.sized fun _ _ _ => rfl) rfl
    (show RoundOk _ _ _ _ (.looking queue.following) from empty)
  rw [Function.update_eq_self] at released
  refine ⟨_, ?_, released, rfl, rfl⟩
  simp [Outgoing.threadStep, merged.reader_eq queue, Outgoing.onRing, releases]

end

theorem completed_ok {buffer : List UInt8}
    (ok : QueueOk queue ring state.callers (state.committed queue) reader)
    (readable : reader.next ≤ reader.limit)
    (length : buffer.length = (ring.buffer (queue.config.index reader.next)).length) :
    ∃ behind, Disruptor.step queue.config ring (.process 0 .read) = some behind ∧
      Disruptor.step queue.config behind (.process 0 (.overwrite buffer)) =
        some (behind.overwritten queue.config reader.next buffer) ∧
      behind.contents = ring.contents ∧
      behind.entryProcessorCursors = ring.entryProcessorCursors ∧
      QueueOk queue (behind.overwritten queue.config reader.next buffer)
        state.callers (state.committed queue)
        (reader.advance (ring.committed reader.next)) := by
  obtain ⟨reads, consumed⟩ := ok.consumed.read readable
  have positive := ok.consumed.next_pos
  have limit := ok.consumed.readerOk.limit
  have started : 1 < (reader.advance (ring.committed reader.next)).next :=
    Nat.lt_succ_of_le positive
  obtain ⟨overwrites, behind⟩ := consumed.overwrite started buffer
  refine ⟨_, reads, overwrites, rfl, rfl, ?_⟩
  have tracked := (ok.tracked.setProcessor consumed).overwrite started buffer
  apply QueueOk.of_tracked tracked _ ok.accepts ok.accepted
  intro index
  simp only [Disruptor.Ring.overwritten_buffer,
    Disruptor.Ring.setEntry_buffer, Function.update_apply]
  split_ifs
  · exact (ok.sized _).congr length
  · exact ok.sized index

theorem next_number (merged : Merged args iovMax first state readers messages written) :
    (first + messages.length + 1) % 2 ^ 64 = (state.msgSeqNumber + 1) % 2 ^ 64 := by
  have number := merged.number
  omega

theorem complete (merged : Merged args iovMax first state readers messages written)
    (startFits : args.fixStart.length < 32) (standing : state.round = .draining queue)
    (running : (readers queue).next ≤ (readers queue).limit)
    (room : state.vdata.length < iovMax) :
    ∃ next reader later, state.threadStep args iovMax .complete (.draining queue) = some next ∧
      Merged args iovMax first next (Function.update readers queue reader) later written ∧
      next.committed = state.committed ∧ next.round = .draining queue ∧
      reader.next = (readers queue).next + 1 ∧
      reader.limit = (readers queue).limit := by
  have ok := merged.queues queue
  have draining := merged.round
  rw [standing] at draining
  have remaining := merged.remaining
  have readable := running.trans ok.consumed.readerOk.limit
  obtain ⟨request, found, accepts, prepared⟩ := ok.next_request readable
  obtain ⟨completed, completes, number, stored, bytes, length⟩ :=
    prepared.completes startFits accepts.short accepts.small merged.next_number
  obtain ⟨ring, reads, overwrites, contents, cursors, behind⟩ := completed_ok ok running length
  let next : Outgoing := { state with
      rings := Function.update state.rings queue
        (ring.overwritten queue.config (readers queue).next completed.buffer)
      msgSeqNumber := completed.msgSeqNumber
      stored := state.stored ++ [completed.stored]
      vdata := state.vdata ++ [⟨(readers queue).next, completed.start, completed.msgLength⟩] }
  have steps : state.threadStep args iovMax .complete (.draining queue) = some next := by
    simp [Outgoing.threadStep, merged.reader_eq queue, running, room,
      Outgoing.complete, completes, Outgoing.onRing, reads, overwrites, next]
  refine ⟨next, (readers queue).advance ((state.rings queue).committed
    (readers queue).next), messages ++ [(queue, request)], steps,
    ⟨?_, ?_, ?_, ?_, ?_, ?_, ?_, ?_⟩, rfl, standing, rfl, rfl⟩
  · intro other
    rcases eq_or_ne other queue with rfl | apart
    · simpa only [next, Function.update_self] using behind
    · simpa only [next, Function.update_of_ne apart] using merged.queues other
  · simp only [next, number, List.length_append, List.length_singleton]
    omega
  · rw [mergedRecords_concat, ← merged.stored, ← stored]
  · intro other
    rw [ofQueue_concat, merged.ordered other]
    rcases eq_or_ne other queue with rfl | apart
    · have positive := ok.consumed.next_pos
      have following : ((readers other).advance ((state.rings
          other).committed (readers other).next)).next - 1 =
          (readers other).next - 1 + 1 := by
        simp only [Reader.advance]
        omega
      rw [Function.update_self, following, List.take_add_one, found, if_pos rfl]
      rfl
    · rw [Function.update_of_ne apart, if_neg apart.symm, List.append_nil]
  · rw [mergedTexts_concat, List.take_append_of_le_length (by
      rw [length_mergedTexts]; omega)]
    exact merged.sink
  · simp only [next, List.length_append, List.length_singleton]
    omega
  · simp only [next, List.length_append, List.length_singleton]
    omega
  · rw [mergedTexts_concat, List.drop_append_of_le_length (by
      rw [length_mergedTexts]; omega)]
    change RoundOk _ _ _ _ state.round
    rw [standing]
    change Draining (Function.update state.rings queue _ queue)
      (Function.update readers queue _ queue) _ _
    rw [Function.update_self, Function.update_self]
    refine Draining.complete draining ok.consumed running ?_ ?_ ?_
    · exact cursors
    · intro sequence apart
      rw [← contents]
      exact Function.update_of_ne apart _ _
    · rw [Disruptor.Ring.overwritten_contents, Function.update_self, ← bytes]
      rfl

end Thread

end Merged

end MercuryFix
