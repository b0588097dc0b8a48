import MercuryFix.BatchWrites
import MercuryFix.OutgoingDelivery

/-!
# Pushes without memory

When `push` gets no memory for an entry of bravo, it leaves the entry with a NULL
pointer and commits it, because the ring buffer cannot take it back.  `push_bravo`
does not look for that.
-/

namespace MercuryFix

open TransitionSystem

open Disruptor hiding Ring step

/-- The outgoing queues with allocations that may fail: the callers whose
allocation has failed, and for each committed entry of bravo the request and
whether its `push` returns `ENOMEM`. -/
structure Pushing where
  outgoing : Outgoing
  failing : Nat → Bool
  pushed : List (PushRequest × Bool)

inductive PushingAction
  | ordinary (action : OutgoingAction)
  | outOfMemory (caller : Nat)

namespace Pushing

def init (msgSeqNumber : Nat) : Pushing := ⟨Outgoing.init msgSeqNumber, fun _ => false, []⟩

/-- The branch of `push` behind a `malloc` that fails. -/
def outOfMemory (state : Pushing) (caller : Nat) (request : PushRequest) :
    Option Pushing :=
  match (state.outgoing.rings .bravo).publishers caller with
  | .holding sequence =>
    let memory := (state.outgoing.rings .bravo).buffer (Queue.bravo.config.index sequence)
    if memory.length < request.blockSize then
      (state.outgoing.onRing .bravo (.publish caller (.write []))).map
        fun next =>
          { state with
            outgoing := next.setCaller caller (.inside .bravo request true)
            failing := Function.update state.failing caller true }
    else none
  | _ => none

/-- A step of the queues, with a note of each commit on bravo. -/
def noted (state : Pushing) (next : Outgoing) : OutgoingAction → Pushing
  | .commit caller =>
    match (state.outgoing.callers caller).filledFor .bravo with
    | some request =>
      { outgoing := next
        failing := Function.update state.failing caller false
        pushed := state.pushed ++ [(request, state.failing caller)] }
    | none => { state with outgoing := next }
  | _ => { state with outgoing := next }

def step (args : PusherArgs) (iovMax : Nat) (state : Pushing) :
    PushingAction → Option Pushing
  | .ordinary action =>
    (state.outgoing.step args iovMax action).map (state.noted · action)
  | .outOfMemory caller =>
    match state.outgoing.callers caller with
    | .inside .bravo request false => state.outOfMemory caller request
    | _ => none

end Pushing

def notesOf (callers : Nat → Caller) (failing : Nat → Bool) (p : Nat) :
    Option (PushRequest × Bool) :=
  ((callers p).filledFor .bravo).map (·, failing p)

/-- What a `push` leaves in its entry of bravo: the request in a block that is large
enough, or no block. -/
def LeftBehind : PushRequest × Bool → List UInt8 → Prop
  | (request, false), buffer =>
    ∃ block, request.blockSize ≤ block.length ∧ fillEntry request block = some buffer
  | (_, true), buffer => buffer = []

theorem Queue.blockSize_le {request : PushRequest} {memory malloced block : List UInt8}
    (blocks : Queue.bravo.block request memory malloced = some block) :
    request.blockSize ≤ block.length := by
  rw [Queue.block] at blocks
  split at blocks
  · obtain ⟨size, same⟩ := Option.ite_none_right_eq_some.mp blocks
    cases same
    omega
  · cases blocks
    omega

section Queues

variable {state next : Outgoing} {queue : Queue}

variable {action : Action (List UInt8)}

theorem Outgoing.onRing_callers (steps : state.onRing queue action = some next) :
    next.callers = state.callers := by
  obtain ⟨ring, -, rfl⟩ := onRing_eq_some.mp steps
  rfl

theorem Outgoing.onRing_self (steps : state.onRing queue action = some next) :
    Disruptor.step queue.config (state.rings queue) action = some (next.rings queue) := by
  obtain ⟨ring, stepped, rfl⟩ := onRing_eq_some.mp steps
  dsimp only
  rw [stepped, Function.update_self]

theorem Outgoing.onRing_cases (steps : state.onRing queue action = some next) (other : Queue) :
    Disruptor.step other.config (state.rings other) action = some (next.rings other) ∨
      next.rings other = state.rings other := by
  rcases eq_or_ne other queue with rfl | apart
  · exact .inl (onRing_self steps)
  · obtain ⟨ring, -, rfl⟩ := onRing_eq_some.mp steps
    exact .inr (Function.update_of_ne apart _ _)

/-- Bravo holds what the notes say. -/
def BravoHolds (ring : Disruptor.Ring (List UInt8))
    (notes : Nat → Option (PushRequest × Bool))
    (pushed : List (PushRequest × Bool)) : Prop :=
  ∃ reader, Tracked Queue.bravo.config ring reader LeftBehind notes pushed

variable {notes fewer : Nat → Option (PushRequest × Bool)}
  {pushed : List (PushRequest × Bool)}

theorem BravoHolds.weaken {ring : Disruptor.Ring (List UInt8)}
    (holds : BravoHolds ring notes pushed)
    (kept : ∀ p note, fewer p = some note → notes p = some note) :
    BravoHolds ring fewer pushed := by
  obtain ⟨reader, tracked⟩ := holds
  exact ⟨reader, tracked.weaken kept⟩

section

variable (holds : BravoHolds (state.rings .bravo) notes pushed)
include holds

theorem BravoHolds.turn {p : Nat} {action : PublisherAction (List UInt8)}
    (steps : state.onRing queue (.publish p action) = some next) (acquires : action.Acquires) :
    BravoHolds (next.rings .bravo) notes pushed := by
  rcases Outgoing.onRing_cases steps .bravo with stepped | same
  · obtain ⟨reader, tracked⟩ := holds
    exact ⟨reader, tracked.turn (publisherMove_of_step stepped) acquires⟩
  · rw [same]
    exact holds

theorem BravoHolds.write {p sequence : Nat} {content : List UInt8} {note : PushRequest × Bool}
    (holding : (state.rings .bravo).publishers p = .holding sequence)
    (left : LeftBehind note content)
    (steps : state.onRing .bravo (.publish p (.write content)) = some next) :
    BravoHolds (next.rings .bravo) (Function.update notes p (some note))
      pushed := by
  obtain ⟨reader, tracked⟩ := holds
  have stepped := Outgoing.onRing_self steps
  simp only [Disruptor.step, publisherStep, holding, Option.some.injEq] at stepped
  rw [← stepped]
  exact ⟨reader, tracked.write holding left⟩

theorem BravoHolds.commit {p : Nat} {note : PushRequest × Bool} (noted : notes p = some note)
    (steps : state.onRing .bravo (.publish p .commit) = some next) :
    BravoHolds (next.rings .bravo) (Function.update notes p none) (pushed ++ [note]) := by
  obtain ⟨reader, tracked⟩ := holds
  have moves := publisherMove_of_step (Outgoing.onRing_self steps)
  exact ⟨reader, tracked.commit noted moves⟩

theorem BravoHolds.elsewhere (steps : state.onRing queue action = some next)
    (apart : queue ≠ .bravo) :
    BravoHolds (next.rings .bravo) notes pushed := by
  obtain ⟨ring, -, rfl⟩ := Outgoing.onRing_eq_some.mp steps
  dsimp only
  rw [Function.update_of_ne apart.symm]
  exact holds

theorem BravoHolds.process {action : ProcessorAction (List UInt8)}
    (steps : state.onRing queue (.process 0 action) = some next) (stays : action ≠ .unregister) :
    BravoHolds (next.rings .bravo) notes pushed ∧ next.callers = state.callers := by
  apply And.intro _ (Outgoing.onRing_callers steps)
  rcases Outgoing.onRing_cases steps .bravo with stepped | same
  · obtain ⟨reader, tracked⟩ := holds
    exact tracked.process_step stepped stays
  · rw [same]
    exact holds

theorem BravoHolds.thread {args : PusherArgs} {iovMax : Nat} {action : OutgoingAction}
    {round : Round} (steps : state.threadStep args iovMax action round = some next) :
    BravoHolds (next.rings .bravo) notes pushed ∧ next.callers = state.callers := by
  cases Outgoing.roundMove_of_threadStep steps with
  | looks _ moves | limits moves | releases _ moves =>
    have kept := holds.process moves (by simp)
    exact kept
  | completes _ _ _ completed =>
    simp only [Outgoing.complete, Option.bind_eq_bind,
      Option.bind_eq_some_iff, Option.some.injEq] at completed
    obtain ⟨message, -, read, reads, behind, overwrites, rfl⟩ := completed
    obtain ⟨middle, callers⟩ := holds.process reads (by simp)
    obtain ⟨kept, same⟩ := middle.process overwrites (by simp)
    exact ⟨kept, same.trans callers⟩
  | flushes | finishes => exact ⟨holds, rfl⟩

end

end Queues

section Callers

/-- The notes are right, and an allocation has failed only for a caller that is
about to commit its entry of bravo. -/
structure PushingOk (ring : Disruptor.Ring (List UInt8)) (callers : Nat → Caller)
    (failing : Nat → Bool) (pushed : List (PushRequest × Bool)) : Prop where
  bravo : BravoHolds ring (notesOf callers failing) pushed
  failing : ∀ p, failing p = true → ∃ request, (callers p).filledFor .bravo = some request

namespace PushingOk

variable {ring next : Disruptor.Ring (List UInt8)} {callers now : Nat → Caller}
  {failing : Nat → Bool} {pushed : List (PushRequest × Bool)} {caller : Nat}
  {request : PushRequest}

section

variable (ok : PushingOk ring callers failing pushed)
include ok

theorem not_failing (unfilled : (callers caller).filledFor .bravo = none) :
    failing caller = false := by
  by_contra failed
  obtain ⟨request, filled⟩ := ok.failing caller (by simpa using failed)
  rw [unfilled] at filled
  cases filled

theorem unnoted (bravo : BravoHolds next (notesOf callers failing) pushed)
    (same : ∀ p, (now p).filledFor .bravo = (callers p).filledFor .bravo) :
    PushingOk next now failing pushed where
  bravo := by
    apply bravo.weaken
    intro p note found
    rw [notesOf, same p] at found
    exact found
  failing := by
    intro p failed
    rw [same p]
    exact ok.failing p failed

theorem goes {gone : Caller} {flag : Bool} {later : List (PushRequest × Bool)}
    (bravo : BravoHolds next (Function.update (notesOf callers failing) caller
      ((gone.filledFor .bravo).map (·, flag))) later)
    (filled : flag = true → ∃ request, gone.filledFor .bravo = some request) :
    PushingOk next (Function.update callers caller gone)
      (Function.update failing caller flag) later where
  bravo := by
    apply bravo.weaken
    intro p note found
    rw [notesOf] at found
    rcases eq_or_ne p caller with rfl | apart
    · rw [Function.update_self, Function.update_self] at found
      rw [Function.update_self]
      exact found
    · rw [Function.update_of_ne apart, Function.update_of_ne apart] at found
      rw [Function.update_of_ne apart]
      exact found
  failing := by
    intro p failed
    rcases eq_or_ne p caller with rfl | apart
    · rw [Function.update_self] at failed ⊢
      exact filled failed
    · rw [Function.update_of_ne apart] at failed ⊢
      exact ok.failing p failed

theorem leaves {flag : Bool} (bravo : BravoHolds next
      (Function.update (notesOf callers failing) caller (some (request, flag)))
      pushed) :
    PushingOk next (Function.update callers caller (.inside .bravo request true))
      (Function.update failing caller flag) pushed :=
  ok.goes bravo fun _ => ⟨request, rfl⟩

theorem commits {later : List (PushRequest × Bool)}
    (bravo : BravoHolds next (Function.update (notesOf callers failing) caller none) later) :
    PushingOk next (Function.update callers caller .outside)
      (Function.update failing caller false) later :=
  ok.goes bravo nofun

end

theorem filledFor_same {later : Caller}
    (same : later.filledFor .bravo = (callers caller).filledFor .bravo) (p : Nat) :
    (Function.update callers caller later p).filledFor .bravo = (callers p).filledFor .bravo := by
  rw [Caller.filledFor_update, same]
  exact congrFun (Function.update_eq_self caller _) p

end PushingOk

end Callers

section Steps

def Pushing.Ok (state : Pushing) : Prop :=
  PushingOk (state.outgoing.rings .bravo) state.outgoing.callers state.failing state.pushed

namespace Pushing.Ok

variable {args : PusherArgs} {iovMax caller : Nat} {state after : Pushing}
  {next : Outgoing} {request : PushRequest} {queue : Queue}

theorem init (msgSeqNumber : Nat) : (Pushing.init msgSeqNumber).Ok where
  bravo := ⟨_, Tracked.registered _ (by decide)⟩
  failing := by simp [Pushing.init]

section

variable (ok : state.Ok)
include ok

theorem acquire (outside : state.outgoing.callers caller = .outside)
    (steps : state.outgoing.acquire caller queue request = some next) :
    Ok { state with outgoing := next } := by
  obtain ⟨behind, onRing, rfl⟩ := Option.map_eq_some_iff.mp steps
  have turned := ok.bravo.turn onRing trivial
  apply ok.unnoted turned
  rw [Outgoing.setCaller, Outgoing.onRing_callers onRing]
  exact PushingOk.filledFor_same (by rw [outside]; rfl)

theorem fill {malloced : List UInt8}
    (inside : state.outgoing.callers caller = .inside queue request false)
    (steps : state.outgoing.fill caller queue request malloced = some next) :
    Ok { state with outgoing := next } := by
  rw [Outgoing.fill] at steps
  split at steps
  case h_2 => cases steps
  case h_1 sequence holding =>
    simp only [Option.bind_eq_bind, Option.bind_eq_some_iff, Option.some.injEq] at steps
    obtain ⟨block, blocks, filled, fills, behind, onRing, rfl⟩ := steps
    have callers := Outgoing.onRing_callers onRing
    rcases eq_or_ne queue .bravo with rfl | apart
    · have left : LeftBehind (request, false) filled := ⟨block, Queue.blockSize_le blocks, fills⟩
      have noted := ok.leaves (ok.bravo.write holding left onRing)
      have unfailing := ok.not_failing (by rw [inside]; rfl)
      have same : Function.update state.failing caller false = state.failing :=
        Function.update_eq_self_iff.mpr unfailing.symm
      rw [same, ← callers] at noted
      exact noted
    · have kept := ok.bravo.elsewhere onRing apart
      apply ok.unnoted kept
      rw [Outgoing.setCaller, callers]
      exact PushingOk.filledFor_same (by rw [inside]; simp [Caller.filledFor, apart])

theorem outOfMemory (steps : state.outOfMemory caller request = some after) : after.Ok := by
  rw [Pushing.outOfMemory] at steps
  split at steps
  case h_2 => cases steps
  case h_1 sequence holding =>
    obtain ⟨small, wrote⟩ := Option.ite_none_right_eq_some.mp steps
    obtain ⟨behind, onRing, rfl⟩ := Option.map_eq_some_iff.mp wrote
    have left : LeftBehind (request, true) [] := rfl
    have noted := ok.leaves (ok.bravo.write holding left onRing)
    rw [← Outgoing.onRing_callers onRing] at noted
    exact noted

theorem commit (inside : state.outgoing.callers caller = .inside queue request true)
    (steps : state.outgoing.commit caller queue request = some next) :
    (state.noted next (.commit caller)).Ok := by
  obtain ⟨behind, onRing, rfl⟩ := Option.map_eq_some_iff.mp steps
  have callers := Outgoing.onRing_callers onRing
  rcases eq_or_ne queue .bravo with rfl | apart
  · have filled : (state.outgoing.callers caller).filledFor .bravo = some request := by
      rw [inside, Caller.filledFor_inside]
    have note : notesOf state.outgoing.callers state.failing caller =
        some (request, state.failing caller) := by
      rw [notesOf, filled]
      rfl
    have noted := ok.commits (ok.bravo.commit note onRing)
    rw [← callers] at noted
    simp only [Pushing.noted, filled]
    exact noted
  · have unfilled : (state.outgoing.callers caller).filledFor .bravo = none := by
      rw [inside]
      simp [Caller.filledFor, apart]
    have kept := ok.bravo.elsewhere onRing apart
    simp only [Pushing.noted, unfilled]
    apply ok.unnoted kept
    rw [Outgoing.setCaller, callers]
    exact PushingOk.filledFor_same (by rw [unfilled]; rfl)

theorem push {call : PushCall} (outside : state.outgoing.callers caller = .outside)
    (steps : (call.entry request).elim (some state.outgoing)
      (fun queue => state.outgoing.acquire caller queue request) = some next) :
    Ok { state with outgoing := next } := by
  cases admitted : call.entry request with
  | none =>
    rw [admitted] at steps
    cases steps
    exact ok
  | some queue =>
    rw [admitted] at steps
    exact ok.acquire outside steps

theorem turn {action : PublisherAction (List UInt8)}
    (steps : state.outgoing.onRing queue (.publish caller action) = some next)
    (acquires : action.Acquires) : Ok { state with outgoing := next } := by
  apply ok.unnoted (ok.bravo.turn steps acquires)
  rw [Outgoing.onRing_callers steps]
  exact fun _ => rfl

theorem thread {action : OutgoingAction}
    (steps : state.outgoing.threadStep args iovMax action state.outgoing.round = some next) :
    Ok { state with outgoing := next } := by
  obtain ⟨kept, callers⟩ := ok.bravo.thread steps
  apply ok.unnoted kept
  rw [callers]
  exact fun _ => rfl

end

theorem step {action : PushingAction} (ok : state.Ok)
    (steps : state.step args iovMax action = some after) : after.Ok := by
  cases action with
  | outOfMemory caller =>
    simp only [Pushing.step] at steps
    split at steps
    · exact ok.outOfMemory steps
    · cases steps
  | ordinary action =>
    obtain ⟨next, taken, rfl⟩ := Option.map_eq_some_iff.mp steps
    cases action with
    | push caller request =>
      simp only [Outgoing.step] at taken
      split at taken
      · rename_i outside
        rw [Outgoing.push_eq] at taken
        exact ok.push outside taken
      · cases taken
    | sessionPush caller request =>
      simp only [Outgoing.step] at taken
      split at taken
      · rename_i outside
        rw [Outgoing.sessionPush_eq] at taken
        exact ok.push outside taken
      · cases taken
    | scan caller | await caller =>
      simp only [Outgoing.step] at taken
      split at taken
      · exact ok.turn taken trivial
      · cases taken
    | fill caller malloced =>
      simp only [Outgoing.step] at taken
      split at taken
      · rename_i inside
        exact ok.fill inside taken
      · cases taken
    | commit caller =>
      simp only [Outgoing.step] at taken
      split at taken
      · rename_i inside
        exact ok.commit inside taken
      · cases taken
    | look | limit | complete | flush | finish | release =>
      exact ok.thread taken

theorem of_run {first : Nat} {actions : List PushingAction}
    (reached : run (Pushing.step args iovMax) (.init first) actions = some state) : state.Ok :=
  run_invariant Pushing.Ok step (init first) reached

end Pushing.Ok

end Steps

section Completion

/-- The pusher thread is about to complete the next entry of bravo. -/
structure Pushing.Completes (state : Pushing) (reader : Reader (List UInt8)) :
    Prop where
  standing : state.outgoing.round = .draining .bravo
  reading : state.outgoing.reader .bravo = some reader
  pending : reader.next ≤ reader.limit

def Pushing.entry (state : Pushing) (sequence : Nat) : List UInt8 :=
  (state.outgoing.rings .bravo).buffer (Queue.bravo.config.index sequence)

variable {args : PusherArgs} {iovMax first : Nat} {actions : List PushingAction}
  {state : Pushing} {reader : Reader (List UInt8)}

theorem Pushing.Ok.next_note (ok : state.Ok) (completes : state.Completes reader) :
    ∃ note, state.pushed[reader.next - 1]? = some note ∧
      LeftBehind note (state.entry reader.next) := by
  obtain ⟨other, tracked⟩ := ok.bravo
  have reading := completes.reading
  rw [Outgoing.reader, tracked.consumed.reading] at reading
  cases reading
  exact tracked.next_note (completes.pending.trans tracked.consumed.readerOk.limit)

theorem fillEntry_ne_nil {request : PushRequest} {block : List UInt8} :
    fillEntry request block ≠ some [] := by
  intro fills
  simp only [fillEntry, Option.bind_eq_bind, Option.bind_eq_some_iff] at fills
  obtain ⟨-, -, -, -, -, -, withTtl, -, copies⟩ := fills
  have fits := ByteBlock.fits_of_memcpy copies
  have length := ByteBlock.length_memcpy copies
  have offset : partialMsgOffset = 260 := rfl
  rw [List.length_nil] at length
  omega

/-- The thread is about to complete an entry that its `push` has filled exactly if
that `push` did not return `ENOMEM`. -/
theorem bravo_filled_iff
    (reached : run (Pushing.step args iovMax) (.init first) actions = some state)
    (completes : state.Completes reader) :
    (∃ request failed block,
        state.pushed[reader.next - 1]? = some (request, failed) ∧
          fillEntry request block = some (state.entry reader.next)) ↔
      (state.pushed[reader.next - 1]?).map Prod.snd = some false := by
  obtain ⟨⟨request, failed⟩, found, left⟩ :=
    (Pushing.Ok.of_run reached).next_note completes
  rw [found, Option.map_some]
  cases failed with
  | false =>
    obtain ⟨block, -, fills⟩ := left
    exact ⟨fun _ => rfl, fun _ => ⟨request, false, block, rfl, fills⟩⟩
  | true =>
    rw [show state.entry reader.next = [] from left]
    constructor
    · rintro ⟨_, _, _, -, fills⟩
      exact absurd fills fillEntry_ne_nil
    · simp

theorem completeFIXMessage_nil (number msgLength : Nat) :
    completeFIXMessage args number [] msgLength = none := by
  rw [completeFIXMessage]
  split
  · rfl
  · rw [ByteBlock.memcpy_of_overrun (by simp)]
    rfl

theorem Pushing.step_complete_nil (completes : state.Completes reader)
    (unset : state.entry reader.next = []) :
    state.step args iovMax (.ordinary .complete) = none := by
  have stuck : state.outgoing.complete args .bravo reader = none := by
    rw [Outgoing.complete, show (state.outgoing.rings .bravo).buffer
      (Queue.bravo.config.index reader.next) = [] from unset,
      completeFIXMessage_nil]
    rfl
  have byThread : OutgoingAction.complete.ByThread := trivial
  rw [Pushing.step, Outgoing.step_thread _ byThread, completes.standing,
    Outgoing.threadStep, completes.reading]
  simp [stuck]

end Completion

section Examples

variable {request : PushRequest} {filling : PushingAction} {buffer : List UInt8}
  {failed : Bool}

def pushingActions (request : PushRequest) (filling : PushingAction) :
    List PushingAction :=
  [.ordinary (.push 0 request), .ordinary (.scan 0), .ordinary (.scan 0), filling,
    .ordinary (.await 0), .ordinary (.commit 0), .ordinary .look, .ordinary .look,
    .ordinary .limit]

/-- What the step writes to the first entry of bravo for the first caller. -/
def Pushing.Writes (args : PusherArgs) (filling : PushingAction)
    (request : PushRequest) (buffer : List UInt8) (failed : Bool) : Prop :=
  ∀ state : Pushing, state.outgoing.callers 0 = .inside .bravo request false →
    (state.outgoing.rings .bravo).publishers 0 = .holding 1 →
    state.entry 1 = [] → state.failing 0 = false →
    state.step args 1024 filling =
      (state.outgoing.onRing .bravo (.publish 0 (.write buffer))).map fun next =>
        ⟨next.setCaller 0 (.inside .bravo request true),
          Function.update state.failing 0 failed, state.pushed⟩

theorem Pushing.writes_fill {args : PusherArgs} {malloced : List UInt8}
    (size : malloced.length = request.blockSize)
    (fills : fillEntry request malloced = some buffer) :
    Writes args (.ordinary (.fill 0 malloced)) request buffer false := by
  intro state inside holding empty unfailing
  have same : Function.update state.failing 0 false = state.failing :=
    Function.update_eq_self_iff.mpr unfailing.symm
  rw [Pushing.step, Outgoing.fill_bravo inside holding empty size fills, Option.map_map, same]
  rfl

theorem Pushing.writes_outOfMemory (args : PusherArgs) (request : PushRequest) :
    Writes args (.outOfMemory 0) request [] true := by
  intro state inside holding empty unfailing
  have small : (state.entry 1).length < request.blockSize := by
    rw [empty, List.length_nil]
    simp [PushRequest.blockSize, fixBufferReservedTail]
  simp only [Pushing.step, inside, Pushing.outOfMemory, holding]
  exact if_pos small

theorem Pushing.pushed_through_bravo {args : PusherArgs}
    (short : request.msgType.length < msgTypeMaxLength) (large : alfaLimit < request.data.length)
    (writes : Writes args filling request buffer failed) :
    ∃ state, run (Pushing.step args 1024) (.init 0) (pushingActions request filling) = some state ∧
      state.pushed = [(request, failed)] ∧ state.entry 1 = buffer ∧
      state.outgoing.vdata = [] ∧
      ∃ reader, state.Completes reader ∧ reader.next = 1 := by
  have pushes : (Outgoing.init 0).push 0 request = (Outgoing.init 0).acquire 0 .bravo request := by
    rw [Outgoing.push, if_neg (by omega), if_neg (by omega)]
  have first : (Pushing.init 0).step args 1024 (.ordinary (.push 0 request)) =
      ((Outgoing.init 0).acquire 0 .bravo request).map fun next => ⟨next, fun _ => false, []⟩ := by
    rw [← pushes]
    rfl
  refine exists_run_cons first (exists_run_cons rfl (exists_run_cons rfl ?_))
  refine exists_run_cons ((writes _ rfl rfl rfl rfl).trans rfl) ?_
  refine exists_run_cons rfl (exists_run_cons rfl ?_)
  refine exists_run_cons rfl (exists_run_cons rfl (exists_run_cons rfl ?_))
  exact ⟨_, rfl, rfl, rfl, rfl, _, ⟨rfl, rfl, le_rfl⟩, rfl⟩

theorem longRequest_short : longRequest.msgType.length < msgTypeMaxLength := by
  decide

theorem longRequest_large : alfaLimit < longRequest.data.length := by
  rw [length_longRequest]
  omega

/-- A long message for which there is memory. -/
theorem bravo_filled_long : ∃ state reader,
    run (Pushing.step smallArgs 1024) (.init 0) (pushingActions longRequest
      (.ordinary (.fill 0 (List.replicate longRequest.blockSize 0)))) =
        some state ∧
      state.Completes reader ∧
      ∃ request failed block,
        state.pushed[reader.next - 1]? = some (request, failed) ∧
          fillEntry request block = some (state.entry reader.next) := by
  have size : (List.replicate longRequest.blockSize (0 : UInt8)).length =
      longRequest.blockSize :=
    List.length_replicate
  have room : partialMsgOffset + longRequest.data.length + fixBufferReservedTail ≤
      (List.replicate longRequest.blockSize (0 : UInt8)).length := by
    rw [size, PushRequest.blockSize, partialMsgOffset]
    omega
  obtain ⟨buffer, fills, -⟩ := fillEntry_prepared longRequest_short room
  obtain ⟨state, reached, pushed, -, -, reader, completes, next⟩ :=
    Pushing.pushed_through_bravo longRequest_short longRequest_large
      (Pushing.writes_fill size fills)
  refine ⟨state, reader, reached, completes,
    (bravo_filled_iff reached completes).mpr ?_⟩
  rw [pushed, next]
  rfl

/-- A long message for which there is none.  The thread reads through a NULL
pointer. -/
theorem bravo_unset_long : ∃ state reader,
    run (Pushing.step smallArgs 1024) (.init 0)
        (pushingActions longRequest (.outOfMemory 0)) = some state ∧
      state.pushed = [(longRequest, true)] ∧ state.Completes reader ∧
      state.entry reader.next = [] ∧ state.outgoing.vdata = [] ∧
      state.step smallArgs 1024 (.ordinary .complete) = none := by
  obtain ⟨state, reached, pushed, entry, room, reader, completes, next⟩ :=
    Pushing.pushed_through_bravo longRequest_short longRequest_large
      (Pushing.writes_outOfMemory smallArgs longRequest)
  have unset : state.entry reader.next = [] := by
    rw [next, entry]
  exact ⟨state, reader, reached, pushed, completes, unset, room,
    Pushing.step_complete_nil completes unset⟩

end Examples

end MercuryFix
