import MercuryFix.OutgoingMerge

/-!
# Every outgoing message is delivered once

Over every interleaving of callers and pusher thread the sink receives
complete messages with consecutive numbers, each of them stored before, and
nothing that was committed is left out.
-/

namespace MercuryFix

open ByteBlock TransitionSystem DecimalText

open Disruptor hiding Ring step

def OutgoingAction.Small : OutgoingAction → Prop
  | .push _ request | .sessionPush _ request => request.data.length < 2 ^ 32
  | _ => True

def OutgoingAction.ByThread : OutgoingAction → Prop
  | .look | .limit | .complete | .flush | .finish | .release => True
  | _ => False

theorem Outgoing.step_thread {args : PusherArgs} {iovMax : Nat}
    {action : OutgoingAction} (state : Outgoing) (byThread : action.ByThread) :
    state.step args iovMax action = state.threadStep args iovMax action state.round := by
  cases action <;> first | rfl | exact byThread.elim

section Steps

variable {args : PusherArgs} {iovMax first written : Nat}
  {state next : Outgoing} {readers : Queue → Reader (List UInt8)}
  {messages : List (Queue × PushRequest)} {action : OutgoingAction}

section

variable (merged : Merged args iovMax first state readers messages written)
include merged

theorem Merged.thread (startFits : args.fixStart.length < 32)
    (steps : state.threadStep args iovMax action state.round = some next) :
    ∃ readers messages written, Merged args iovMax first next readers messages written := by
  generalize standing : state.round = round at steps
  cases Outgoing.roundMove_of_threadStep steps with
  | @looks queue =>
    rcases Nat.lt_or_ge (state.rings queue).maxReadCursor (readers queue).next with idle | readable
    · obtain ⟨behind, looks, kept, -⟩ := merged.look_idle standing idle
      cases looks.symm.trans steps
      exact ⟨_, _, _, kept⟩
    · obtain ⟨behind, reader, looks, kept, -⟩ := merged.look standing readable
      cases looks.symm.trans steps
      exact ⟨_, _, _, kept⟩
  | limits =>
    obtain ⟨behind, reader, limits, kept, -⟩ := merged.limit standing
    cases limits.symm.trans steps
    exact ⟨_, _, _, kept⟩
  | @completes queue _ _ reading pending room =>
    cases (merged.reader_eq queue).symm.trans reading
    obtain ⟨behind, reader, later, completes, kept, -⟩ :=
      merged.complete startFits standing pending room
    cases completes.symm.trans steps
    exact ⟨_, _, _, kept⟩
  | flushes full =>
    obtain ⟨behind, flushes, kept, -⟩ := merged.flush standing full
    cases flushes.symm.trans steps
    exact ⟨_, _, _, kept⟩
  | @finishes queue _ reading done room =>
    cases (merged.reader_eq queue).symm.trans reading
    obtain ⟨behind, finishes, kept, -⟩ := merged.finish standing done room
    cases finishes.symm.trans steps
    exact ⟨_, _, _, kept⟩
  | releases =>
    obtain ⟨behind, releases, kept, -⟩ := merged.release standing
    cases releases.symm.trans steps
    exact ⟨_, _, _, kept⟩

theorem Merged.push {caller : Nat} {request : PushRequest} (small : request.data.length < 2 ^ 32)
    (steps : state.push caller request = some next) :
    Merged args iovMax first next readers messages written := by
  rw [Outgoing.push] at steps
  split at steps
  · cases steps
    exact merged
  · have short : request.msgType.length < msgTypeMaxLength := by omega
    split at steps
    · exact merged.acquire ⟨short, small, ‹_›⟩ steps
    · exact merged.acquire ⟨short, small, trivial⟩ steps

theorem Merged.sessionPush {caller : Nat} {request : PushRequest}
    (small : request.data.length < 2 ^ 32) (steps : state.sessionPush caller request = some next) :
    Merged args iovMax first next readers messages written := by
  rw [Outgoing.sessionPush] at steps
  split at steps
  · cases steps
    exact merged
  · have short : request.msgType.length < msgTypeMaxLength := by omega
    split at steps
    · exact merged.acquire ⟨short, small, ‹_›⟩ steps
    · cases steps
      exact merged

theorem Merged.step (startFits : args.fixStart.length < 32) (small : action.Small)
    (steps : state.step args iovMax action = some next) :
    ∃ readers messages written, Merged args iovMax first next readers messages written := by
  cases action with
  | push caller request =>
    simp only [Outgoing.step] at steps
    split at steps
    · exact ⟨_, _, _, merged.push small steps⟩
    · cases steps
  | sessionPush caller request =>
    simp only [Outgoing.step] at steps
    split at steps
    · exact ⟨_, _, _, merged.sessionPush small steps⟩
    · cases steps
  | scan caller =>
    simp only [Outgoing.step] at steps
    split at steps
    · exact ⟨_, _, _, merged.turn steps trivial⟩
    · cases steps
  | fill caller malloced =>
    simp only [Outgoing.step] at steps
    split at steps
    · rename_i inside
      exact ⟨_, _, _, merged.fill inside steps⟩
    · cases steps
  | await caller =>
    simp only [Outgoing.step] at steps
    split at steps
    · exact ⟨_, _, _, merged.turn steps trivial⟩
    · cases steps
  | commit caller =>
    simp only [Outgoing.step] at steps
    split at steps
    · rename_i inside
      exact ⟨_, _, _, merged.commit inside steps⟩
    · cases steps
  | look | limit | complete | flush | finish | release =>
    exact merged.thread startFits steps

end

end Steps

section Progress

variable {args : PusherArgs} {iovMax first written : Nat}
  {state : Outgoing} {readers : Queue → Reader (List UInt8)}
  {messages : List (Queue × PushRequest)} {queue : Queue}

/-- The pusher thread alone gets from one state to another. -/
def ThreadRuns (args : PusherArgs) (iovMax : Nat) (state final : Outgoing) :
    Prop :=
  ∃ actions, (∀ action ∈ actions, action.ByThread) ∧
    run (Outgoing.step args iovMax) state actions = some final

theorem ThreadRuns.refl (state : Outgoing) : ThreadRuns args iovMax state state :=
  ⟨[], by simp, rfl⟩

theorem ThreadRuns.trans {middle final : Outgoing} (front : ThreadRuns args iovMax state middle)
    (back : ThreadRuns args iovMax middle final) :
    ThreadRuns args iovMax state final := by
  obtain ⟨earlier, earlierThread, runs⟩ := front
  obtain ⟨later, laterThread, continues⟩ := back
  refine ⟨earlier ++ later, ?_, run_append_eq_some.mpr ⟨_, runs, continues⟩⟩
  intro action member
  rcases List.mem_append.mp member with isEarlier | isLater
  · exact earlierThread action isEarlier
  · exact laterThread action isLater

theorem ThreadRuns.single {round : Round} {action : OutgoingAction}
    {next : Outgoing} (standing : state.round = round)
    (steps : state.threadStep args iovMax action round = some next) (byThread : action.ByThread) :
    ThreadRuns args iovMax state next := by
  refine ⟨[action], by simpa using byThread, run_cons_eq_some.mpr ⟨next, ?_, rfl⟩⟩
  rw [Outgoing.step_thread state byThread, standing, steps]

theorem Merged.make_room (merged : Merged args iovMax first state readers messages written)
    (positive : 0 < iovMax) (standing : state.round = .draining queue) :
    ∃ final written, ThreadRuns args iovMax state final ∧
      Merged args iovMax first final readers messages written ∧
      final.committed = state.committed ∧ final.round = .draining queue ∧
      final.vdata.length < iovMax := by
  rcases Nat.lt_or_eq_of_le merged.room with room | full
  · exact ⟨state, written, .refl state, merged, rfl, standing, room⟩
  · obtain ⟨next, flushes, flushed, same, stands, empty⟩ := merged.flush standing full
    refine ⟨next, _, .single standing flushes trivial, flushed, same, stands, ?_⟩
    rw [empty]
    exact positive

section

variable (startFits : args.fixStart.length < 32)
include startFits

theorem Merged.drains (positive : 0 < iovMax) (count : Nat)
    (merged : Merged args iovMax first state readers messages written)
    (standing : state.round = .draining queue)
    (remaining : (readers queue).next + count = (readers queue).limit + 1) :
    ∃ final reader later, ThreadRuns args iovMax state final ∧
      Merged args iovMax first final (Function.update readers queue reader) later later.length ∧
      final.committed = state.committed ∧
      final.round = .looking queue.following ∧
      reader.next = (readers queue).limit + 1 := by
  induction count generalizing state readers messages written with
  | zero =>
    obtain ⟨roomy, _, clears, kept, same, stands, room⟩ := merged.make_room positive standing
    obtain ⟨finished, finishes, done, sameDone, standsDone⟩ := kept.finish stands (by omega) room
    obtain ⟨final, releases, released, sameFinal, standsFinal⟩ := done.release standsDone
    refine ⟨final, readers queue, messages, ?_, ?_, ?_, standsFinal, remaining⟩
    · exact clears.trans ((ThreadRuns.single stands finishes trivial).trans
        (.single standsDone releases trivial))
    · rwa [Function.update_eq_self]
    · rw [sameFinal, sameDone, same]
  | succ count induction =>
    obtain ⟨roomy, _, clears, kept, same, stands, room⟩ := merged.make_room positive standing
    obtain ⟨next, reader, later, completes, completed, sameNext, standsNext,
      advanced, limit⟩ := kept.complete startFits stands (by omega) room
    obtain ⟨final, last, messages, rest, released, sameFinal, standsFinal,
      reached⟩ := induction completed standsNext (by
        rw [Function.update_self]
        omega)
    refine ⟨final, last, messages, ?_, ?_, ?_, standsFinal, ?_⟩
    · exact clears.trans ((ThreadRuns.single stands completes trivial).trans rest)
    · rwa [Function.update_idem] at released
    · rw [sameFinal, sameNext, same]
    · rw [reached, Function.update_self, limit]

theorem Merged.visits (positive : 0 < iovMax)
    (merged : Merged args iovMax first state readers messages written)
    (standing : state.round = .looking queue) :
    ∃ final reader later, ThreadRuns args iovMax state final ∧
      Merged args iovMax first final (Function.update readers queue reader) later later.length ∧
      final.committed = state.committed ∧
      final.round = .looking queue.following ∧
      reader.next = (state.committed queue).length + 1 := by
  have ok := merged.queues queue
  rcases Nat.lt_or_ge (state.rings queue).maxReadCursor (readers queue).next with idle | readable
  · obtain ⟨next, looks, kept, same, stands⟩ := merged.look_idle standing idle
    have written_eq : written = messages.length := by
      have roundOk := merged.round
      rw [standing] at roundOk
      have empty : state.vdata = [] := roundOk
      have remaining := merged.remaining
      rw [empty, List.length_nil] at remaining
      exact remaining
    have bound := ok.consumed.next_le
    refine ⟨next, readers queue, messages, .single standing looks trivial, ?_, same, stands, ?_⟩
    · rw [Function.update_eq_self, ← written_eq]
      exact kept
    · rw [ok.count]
      omega
  · obtain ⟨sighted, reader, looks, looked, sameSighted, standsSighted,
      nextSighted⟩ := merged.look standing readable
    obtain ⟨limited, limitedReader, limits, bounded, sameLimited,
      standsLimited, nextLimited, limit⟩ := looked.limit standsSighted
    rw [Function.update_idem] at bounded
    rw [Function.update_self] at nextLimited
    have inside : limitedReader.next ≤ limitedReader.limit := by
      rw [nextLimited, nextSighted, limit, sameSighted, ok.count]
      exact readable
    obtain ⟨final, last, later, drains, drained, sameFinal, standsFinal,
      reached⟩ := bounded.drains startFits positive
        (limitedReader.limit + 1 - limitedReader.next) standsLimited (by
          rw [Function.update_self]
          omega)
    refine ⟨final, last, later, ?_, ?_, ?_, standsFinal, ?_⟩
    · exact (ThreadRuns.single standing looks trivial).trans
        ((ThreadRuns.single standsSighted limits trivial).trans drains)
    · rwa [Function.update_idem] at drained
    · rw [sameFinal, sameLimited, sameSighted]
    · rw [reached, Function.update_self, limit, sameSighted]

theorem Merged.gets_to_look (positive : 0 < iovMax)
    (merged : Merged args iovMax first state readers messages written) :
    ∃ final queue readers messages written, ThreadRuns args iovMax state final ∧
      Merged args iovMax first final readers messages written ∧
      final.committed = state.committed ∧ final.round = .looking queue := by
  have drained {queue : Queue} {state : Outgoing} {readers : Queue → Reader (List UInt8)}
      {messages : List (Queue × PushRequest)} {written : Nat}
      (merged : Merged args iovMax first state readers messages written)
      (standing : state.round = .draining queue) :
      ∃ final queue readers messages written, ThreadRuns args iovMax state final ∧
        Merged args iovMax first final readers messages written ∧
        final.committed = state.committed ∧ final.round = .looking queue := by
    have roundOk := merged.round
    rw [standing] at roundOk
    have bounded := roundOk.bounded
    obtain ⟨final, reader, later, drains, drained, same, stands, -⟩ :=
      merged.drains startFits positive
        ((readers queue).limit + 1 - (readers queue).next) standing (by omega)
    exact ⟨final, _, _, _, _, drains, drained, same, stands⟩
  cases standing : state.round with
  | looking queue =>
    exact ⟨state, queue, _, _, _, .refl state, merged, rfl, standing⟩
  | limiting queue =>
    obtain ⟨next, reader, limits, kept, same, stands, -⟩ := merged.limit standing
    obtain ⟨final, _, _, _, _, drains, done, sameFinal, standsFinal⟩ := drained kept stands
    exact ⟨final, _, _, _, _, (ThreadRuns.single standing limits trivial).trans drains, done,
      sameFinal.trans same, standsFinal⟩
  | draining queue => exact drained merged standing
  | releasing queue =>
    obtain ⟨next, releases, kept, same, stands⟩ := merged.release standing
    exact ⟨next, _, _, _, _, .single standing releases trivial, kept, same, stands⟩

theorem Merged.writes_all (positive : 0 < iovMax)
    (merged : Merged args iovMax first state readers messages written) :
    ∃ final readers later, ThreadRuns args iovMax state final ∧
      Merged args iovMax first final readers later later.length ∧
      final.committed = state.committed ∧
      ∀ queue, ofQueue queue later = state.committed queue := by
  obtain ⟨start, queue, _, _, _, looks, looking, same, stands⟩ :=
    merged.gets_to_look startFits positive
  obtain ⟨one, _, _, visitsOne, mergedOne, sameOne, standsOne, reachedOne⟩ :=
    looking.visits startFits positive stands
  obtain ⟨two, _, _, visitsTwo, mergedTwo, sameTwo, standsTwo, reachedTwo⟩ :=
    mergedOne.visits startFits positive standsOne
  obtain ⟨three, _, later, visitsThree, mergedThree, sameThree, -,
    reachedThree⟩ := mergedTwo.visits startFits positive standsTwo
  refine ⟨three, _, later, looks.trans (visitsOne.trans
    (visitsTwo.trans visitsThree)), mergedThree, ?_, fun other => ?_⟩
  · rw [sameThree, sameTwo, sameOne, same]
  · rw [mergedThree.ordered other, sameThree, sameTwo, sameOne, same]
    rw [sameTwo, sameOne, same] at reachedThree
    rw [sameOne, same] at reachedTwo
    rw [same] at reachedOne
    apply List.take_of_length_le
    have covers : other = queue.following.following ∨ other = queue.following ∨ other = queue := by
      cases queue <;> cases other <;> simp [Queue.following]
    rcases covers with rfl | rfl | rfl
    · rw [Function.update_self, reachedThree]
      exact le_rfl
    · rw [Function.update_of_ne (by cases queue <;> decide), Function.update_self, reachedTwo]
      exact le_rfl
    · rw [Function.update_of_ne (by cases other <;> decide),
        Function.update_of_ne (by cases other <;> decide),
        Function.update_self, reachedOne]
      exact le_rfl

end

end Progress

/-- Whatever the interleaving, the messages that the thread has completed are
stored under consecutive numbers, the sink holds the first of them, and those
of each queue are the requests committed there, in order.  The thread alone
can write everything that has been committed. -/
theorem outgoing_messages_merge {args : PusherArgs} {iovMax first : Nat}
    {actions : List OutgoingAction} {state : Outgoing}
    (startFits : args.fixStart.length < 32) (positive : 0 < iovMax)
    (small : ∀ action ∈ actions, action.Small)
    (runs : run (Outgoing.step args iovMax) (Outgoing.init first) actions =
      some state) :
    (∃ messages written, state.stored = mergedRecords first messages ∧
      written ≤ messages.length ∧
      state.sink =
        ((mergedTexts args first messages).take written).flatten ∧
      ∀ queue, ofQueue queue messages <+: state.committed queue) ∧
    ∃ rest final messages, (∀ action ∈ rest, action.ByThread) ∧
      run (Outgoing.step args iovMax) state rest = some final ∧
      final.stored = mergedRecords first messages ∧
      final.sink = (mergedTexts args first messages).flatten ∧
      ∀ queue, ofQueue queue messages = state.committed queue := by
  obtain ⟨readers, messages, written, merged⟩ : ∃ readers messages written,
      Merged args iovMax first state readers messages written := by
    apply run_invariant_guarded (fun state => ∃ readers messages written,
        Merged args iovMax first state readers messages written)
      (fun _ action => action.Small) _
      ⟨_, _, _, Merged.init args iovMax first⟩
      (guarded_of_forall fun action member _ => small action member) runs
    rintro state action next ⟨readers, messages, written, merged⟩ small steps
    exact merged.step startFits small steps
  refine ⟨⟨messages, written, merged.stored, ?_, merged.sink, ?_⟩, ?_⟩
  · have remaining := merged.remaining
    omega
  · intro queue
    rw [merged.ordered queue]
    exact List.take_prefix _ _
  · obtain ⟨final, _, later, ⟨rest, byThread, continues⟩, done, -, all⟩ :=
      merged.writes_all startFits positive
    refine ⟨rest, final, later, byThread, continues, done.stored, ?_, all⟩
    rw [done.sink, ← Merged.length_mergedTexts args first, List.take_length]

def smallArgs : PusherArgs :=
  ⟨ascii ['8', '=', 'F', 'I', 'X', '.', '4', '.', '2'] ++ 1 :: ascii ['9', '='], 1⟩

def pushActions (request : PushRequest) (malloced : List UInt8) :
    List OutgoingAction :=
  [.push 0 request, .scan 0, .scan 0, .fill 0 malloced, .await 0, .commit 0]

theorem outgoing_messages_merge_small : ∃ state,
    run (Outgoing.step smallArgs 1024) (Outgoing.init 0)
      (pushActions ⟨[1, 49, 48, 61], [68], 0, 0, by decide⟩ [] ++
        [.look, .limit, .complete, .finish]) = some state ∧
    state.stored.length = 1 ∧ state.sink.length = 32 ∧
    ∃ messages written, state.stored = mergedRecords 0 messages ∧
      written ≤ messages.length ∧
      state.sink = ((mergedTexts smallArgs 0 messages).take written).flatten ∧
      ∀ queue, ofQueue queue messages <+: state.committed queue := by
  have evaluated : (run (Outgoing.step smallArgs 1024) (Outgoing.init 0)
      (pushActions ⟨[1, 49, 48, 61], [68], 0, 0, by decide⟩ [] ++
        [.look, .limit, .complete, .finish])).map
      (fun state => (state.stored.length, state.sink.length)) =
      some (1, 32) := by
    decide +kernel
  obtain ⟨state, runs, lengths⟩ := Option.map_eq_some_iff.mp evaluated
  have small : ∀ action ∈ pushActions ⟨[1, 49, 48, 61], [68], 0, 0, by decide⟩
      [] ++ [.look, .limit, .complete, .finish], action.Small := by
    simp [pushActions, OutgoingAction.Small]
  have merge := outgoing_messages_merge (by decide) (by decide) small runs
  exact ⟨state, runs, congrArg Prod.fst lengths, congrArg Prod.snd lengths,
    merge.1⟩

section Oversized

variable {args : PusherArgs} {state : Outgoing} {request : PushRequest}
  {malloced buffer : List UInt8} {completed : CompletedMessage}

theorem Outgoing.fill_bravo {iovMax sequence : Nat}
    (inside : state.callers 0 = .inside .bravo request false)
    (holds : (state.rings .bravo).publishers 0 = .holding sequence)
    (empty : (state.rings .bravo).buffer (Queue.bravo.config.index sequence) = [])
    (size : malloced.length = request.blockSize)
    (fills : fillEntry request malloced = some buffer) :
    state.step args iovMax (.fill 0 malloced) =
      (state.onRing .bravo (.publish 0 (.write buffer))).map
        (·.setCaller 0 (.inside .bravo request true)) := by
  have positive : 0 < request.blockSize := by
    simp [PushRequest.blockSize, fixBufferReservedTail]
  simp only [Outgoing.step, inside, Outgoing.fill, holds, empty, Queue.block, List.length_nil,
    positive, size, ↓reduceIte, fills, Option.bind_eq_bind, Option.bind_some]
  cases state.onRing .bravo (.publish 0 (.write buffer)) <;> rfl

theorem Outgoing.complete_bravo {reader : Reader (List UInt8)}
    (standing : state.round = .draining .bravo)
    (reading : (state.rings .bravo).processors 0 = .reading reader)
    (next : reader.next = 1) (limit : reader.limit = 1)
    (start : reader.start = 1)
    (room : state.vdata = []) (number : state.msgSeqNumber = 0)
    (committed : state.committed .bravo = [request])
    (stored : state.stored = [])
    (holds : (state.rings .bravo).buffer 1 = buffer)
    (completes : completeFIXMessage args 0 buffer (getLengthOfPartialMsg buffer) = some completed) :
    ∃ final, run (Outgoing.step args 1024) state [.complete] = some final ∧
      final.committed .bravo = [request] ∧
      final.stored = [completed.stored] := by
  have index : Queue.bravo.config.index 1 = 1 := rfl
  obtain ⟨final, steps, same⟩ : ∃ final, state.step args 1024 .complete = some final ∧
      final.committed .bravo = [request] ∧
      final.stored = [completed.stored] := by
    simp [Outgoing.step, standing, Outgoing.threadStep, Outgoing.reader, reading, next, limit,
      start, room, Outgoing.complete, number, index, holds, completes, Outgoing.onRing,
      Disruptor.step, processorStep, readerStep, committed, stored]
  exact exists_run_cons steps ⟨final, rfl, same⟩

theorem Outgoing.pushed_through_bravo (short : request.msgType.length < msgTypeMaxLength)
    (large : alfaLimit < request.data.length) (size : malloced.length = request.blockSize)
    (fills : fillEntry request malloced = some buffer)
    (completes : completeFIXMessage args 0 buffer (getLengthOfPartialMsg buffer) = some completed) :
    ∃ final, run (Outgoing.step args 1024) (Outgoing.init 0)
        (pushActions request malloced ++ [.look, .look, .limit, .complete]) = some final ∧
      final.committed .bravo = [request] ∧
      final.stored = [completed.stored] := by
  have pushes : (Outgoing.init 0).push 0 request = (Outgoing.init 0).acquire 0 .bravo request := by
    rw [Outgoing.push, if_neg (by omega), if_neg (by omega)]
  refine exists_run_cons pushes (exists_run_cons rfl (exists_run_cons rfl ?_))
  refine exists_run_cons ((Outgoing.fill_bravo rfl rfl rfl size fills).trans rfl) ?_
  refine exists_run_cons rfl (exists_run_cons rfl ?_)
  refine exists_run_cons rfl (exists_run_cons rfl (exists_run_cons rfl ?_))
  exact Outgoing.complete_bravo rfl rfl rfl rfl rfl rfl rfl rfl rfl rfl completes

end Oversized

/-- The length field of the entry has 32 bits, so a request of `2 ^ 32` bytes
is stored and sent without its bytes. -/
theorem oversized_request_sent_empty : ∃ request malloced state,
    request.data.length = 2 ^ 32 ∧
    run (Outgoing.step smallArgs 1024) (Outgoing.init 0)
      (pushActions request malloced ++ [.look, .look, .limit, .complete]) =
        some state ∧
    state.committed .bravo = [request] ∧
    state.stored.map SentRecord.partialMsg = [[]] := by
  obtain ⟨request, long, short⟩ : ∃ request : PushRequest,
      request.data.length = 2 ^ 32 ∧
      request.msgType.length < msgTypeMaxLength :=
    ⟨⟨List.replicate (2 ^ 32) 1, [68], 0, 0, by decide⟩,
      List.length_replicate, by decide⟩
  obtain ⟨malloced, size⟩ : ∃ malloced : List UInt8,
      malloced.length = request.blockSize :=
    ⟨List.replicate request.blockSize 0, List.length_replicate⟩
  have large : alfaLimit < request.data.length := by
    rw [long]
    decide
  have fits : partialMsgOffset + request.data.length + fixBufferReservedTail ≤
      malloced.length := by
    rw [size, PushRequest.blockSize, partialMsgOffset]
    omega
  obtain ⟨buffer, fills, prepared, -⟩ := fillEntry_prepared short fits
  have empty : getLengthOfPartialMsg buffer = 0 := by
    rw [prepared.getLengthOfPartialMsg, long, Nat.mod_self]
  have room := prepared.room
  have header : totalPrefixLength smallArgs request.msgType 1
      (bodyLengthOf request.msgType 1 ([] : List UInt8).length) ≤ partialMsgOffset :=
    totalPrefixLength_le (by decide) short (by decide) (bodyLengthOf_lt _ _ _)
  have number : 1 = (0 + 1) % 2 ^ 64 := rfl
  have nothing : window buffer partialMsgOffset ([] : List UInt8).length = [] :=
    List.take_zero
  obtain ⟨completed, completes, -, stored, -⟩ := completeFIXMessage_eq
    prepared.cString_msgType nothing (by rw [List.length_nil]; omega) number
    header
  have read : completeFIXMessage smallArgs 0 buffer
      (getLengthOfPartialMsg buffer) = some completed := by
    rw [empty]
    exact completes
  obtain ⟨state, runs, committed, kept⟩ := Outgoing.pushed_through_bravo short
    large size fills read
  refine ⟨request, malloced, state, long, runs, committed, ?_⟩
  rw [kept, List.map_singleton, stored]

end MercuryFix
