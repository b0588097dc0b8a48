import MercuryFix.DisruptorConsumer
import MercuryFix.FixMessageCompletion

/-!
# The outgoing queues

`push` and `session_push` put requests on the queues alfa, bravo and charlie,
and the pusher thread drains the three of them round after round.  Each atomic
operation on a queue is a step.  Filling an entry, completing a message in its
entry and `do_writev` are steps too: an entry belongs to one thread meanwhile.

The list of the committed requests of each queue is not in the source.
-/

namespace MercuryFix

open ByteBlock

open Disruptor hiding Ring

inductive Queue
  | alfa
  | bravo
  | charlie
  deriving DecidableEq

namespace Queue

def config : Queue → Config
  | alfa => ⟨10, 1⟩
  | bravo => ⟨7, 1⟩
  | charlie => ⟨9, 1⟩

def following : Queue → Queue
  | alfa => bravo
  | bravo => charlie
  | charlie => alfa

/-- The memory of an entry behind `ring_buffer_init`.  An entry of bravo is
the block that its pointer leads to. -/
def zero : Queue → List UInt8
  | alfa => List.replicate 4096 0
  | bravo => []
  | charlie => List.replicate 512 0

end Queue

def alfaLimit : Nat := 4092 - msgTypeStringOffset - fixBufferReservedHead - fixBufferReservedTail

def charlieLimit : Nat := 508 - msgTypeStringOffset - fixBufferReservedHead - fixBufferReservedTail

def PushRequest.blockSize (request : PushRequest) : Nat :=
  request.data.length + msgTypeStringOffset + fixBufferReservedHead + fixBufferReservedTail

/-- The memory that an acquired entry is filled in.  A block of bravo is
replaced by a new one when it is too small. -/
def Queue.block (queue : Queue) (request : PushRequest)
    (memory malloced : List UInt8) : Option (List UInt8) :=
  match queue with
  | bravo =>
    if memory.length < request.blockSize then
      if malloced.length = request.blockSize then some malloced else none
    else some memory
  | _ => some memory

inductive Caller
  | outside
  | inside (queue : Queue) (request : PushRequest) (filled : Bool)

/-- An `iovec`: a part of the buffer of an entry. -/
structure IoVec where
  sequence : Nat
  start : Nat
  length : Nat

/-- Where the pusher thread stands. -/
inductive Round
  | looking (queue : Queue)
  | limiting (queue : Queue)
  | draining (queue : Queue)
  | releasing (queue : Queue)

structure Outgoing where
  rings : Queue → Disruptor.Ring (List UInt8)
  callers : Nat → Caller
  msgSeqNumber : Nat
  round : Round
  vdata : List IoVec
  stored : List SentRecord
  sink : List UInt8
  committed : Queue → List PushRequest

def Outgoing.init (msgSeqNumber : Nat) : Outgoing where
  rings := fun queue => Disruptor.Ring.registered queue.zero
  callers := fun _ => .outside
  msgSeqNumber := msgSeqNumber
  round := .looking .alfa
  vdata := []
  stored := []
  sink := []
  committed := fun _ => []

inductive OutgoingAction
  | push (caller : Nat) (request : PushRequest)
  | sessionPush (caller : Nat) (request : PushRequest)
  | scan (caller : Nat)
  | fill (caller : Nat) (malloced : List UInt8)
  | await (caller : Nat)
  | commit (caller : Nat)
  | look
  | limit
  | complete
  | flush
  | finish
  | release

namespace Outgoing

def onRing (state : Outgoing) (queue : Queue) (action : Action (List UInt8)) :
    Option Outgoing :=
  (Disruptor.step queue.config (state.rings queue) action).map fun ring =>
    { state with rings := Function.update state.rings queue ring }

theorem onRing_eq_some {state next : Outgoing} {queue : Queue} {action : Action (List UInt8)} :
    state.onRing queue action = some next ↔
      ∃ ring, Disruptor.step queue.config (state.rings queue) action = some ring ∧
        { state with rings := Function.update state.rings queue ring } = next :=
  Option.map_eq_some_iff

def setCaller (state : Outgoing) (caller : Nat) (now : Caller) : Outgoing :=
  { state with callers := Function.update state.callers caller now }

/-- The first atomic operation of `publisher_next_entry_blocking`. -/
def acquire (state : Outgoing) (caller : Nat) (queue : Queue)
    (request : PushRequest) : Option Outgoing :=
  (state.onRing queue (.publish caller .nextEntryBlocking)).map
    (·.setCaller caller (.inside queue request false))

/-- The branches of `push` in front of the entry. -/
def push (state : Outgoing) (caller : Nat) (request : PushRequest) :
    Option Outgoing :=
  if msgTypeMaxLength < request.msgType.length + 1 then some state
  else if request.data.length ≤ alfaLimit then
    state.acquire caller .alfa request
  else state.acquire caller .bravo request

/-- The branches of `session_push` in front of the entry. -/
def sessionPush (state : Outgoing) (caller : Nat) (request : PushRequest) :
    Option Outgoing :=
  if msgTypeMaxLength < request.msgType.length + 1 then some state
  else if request.data.length ≤ charlieLimit then
    state.acquire caller .charlie request
  else some state

def fill (state : Outgoing) (caller : Nat) (queue : Queue)
    (request : PushRequest) (malloced : List UInt8) : Option Outgoing :=
  match (state.rings queue).publishers caller with
  | .holding sequence => do
      let memory := (state.rings queue).buffer (queue.config.index sequence)
      let block ← queue.block request memory malloced
      let filled ← fillEntry request block
      let next ← state.onRing queue (.publish caller (.write filled))
      some (next.setCaller caller (.inside queue request true))
  | _ => none

def commit (state : Outgoing) (caller : Nat) (queue : Queue)
    (request : PushRequest) : Option Outgoing :=
  (state.onRing queue (.publish caller .commit)).map fun next =>
    { next.setCaller caller .outside with
      committed := Function.update state.committed queue (state.committed queue ++ [request]) }

def gather (state : Outgoing) (queue : Queue) : List UInt8 :=
  state.vdata.flatMap fun iov =>
    window ((state.rings queue).buffer (queue.config.index iov.sequence)) iov.start iov.length

/-- One turn of the loop in `push_alfa`, `push_bravo` and `push_charlie` up to
the test for a full array of `iovec`. -/
def complete (args : PusherArgs) (state : Outgoing) (queue : Queue)
    (reader : Reader (List UInt8)) : Option Outgoing := do
  let buffer := (state.rings queue).buffer (queue.config.index reader.next)
  let completed ← completeFIXMessage args state.msgSeqNumber buffer (getLengthOfPartialMsg buffer)
  let read ← state.onRing queue (.process 0 .read)
  let next ← read.onRing queue (.process 0 (.overwrite completed.buffer))
  some
    { next with
      msgSeqNumber := completed.msgSeqNumber
      stored := state.stored ++ [completed.stored]
      vdata := state.vdata ++ [⟨reader.next, completed.start, completed.msgLength⟩] }

def reader (state : Outgoing) (queue : Queue) : Option (Reader (List UInt8)) :=
  match (state.rings queue).processors 0 with
  | .reading reader => some reader
  | _ => none

/-- A step of the pusher thread at its queue. -/
def threadStep (args : PusherArgs) (iovMax : Nat) (state : Outgoing) :
    OutgoingAction → Round → Option Outgoing
  | .look, .looking queue => do
      let current ← state.reader queue
      let next ← state.onRing queue (.process 0 .look)
      some { next with
        round :=
          if current.next ≤ (state.rings queue).maxReadCursor then
            .limiting queue
          else .looking queue.following }
  | .limit, .limiting queue => do
      let next ← state.onRing queue (.process 0 .limit)
      some { next with round := .draining queue }
  | .complete, .draining queue => do
      let current ← state.reader queue
      if current.next ≤ current.limit ∧ state.vdata.length < iovMax then
        state.complete args queue current
      else none
  | .flush, .draining queue =>
    if state.vdata.length = iovMax then
      some { state with sink := state.sink ++ state.gather queue, vdata := [] }
    else none
  | .finish, .draining queue => do
      let current ← state.reader queue
      if current.limit < current.next ∧ state.vdata.length < iovMax then
        some { state with
          sink := state.sink ++ state.gather queue
          vdata := []
          round := .releasing queue }
      else none
  | .release, .releasing queue => do
      let current ← state.reader queue
      let next ← state.onRing queue (.process 0 (.release current.limit))
      some { next with round := .looking queue.following }
  | _, _ => none

def step (args : PusherArgs) (iovMax : Nat) (state : Outgoing) :
    OutgoingAction → Option Outgoing
  | .push caller request =>
    match state.callers caller with
    | .outside => state.push caller request
    | .inside .. => none
  | .sessionPush caller request =>
    match state.callers caller with
    | .outside => state.sessionPush caller request
    | .inside .. => none
  | .scan caller =>
    match state.callers caller with
    | .inside queue _ false => state.onRing queue (.publish caller .scan)
    | _ => none
  | .fill caller malloced =>
    match state.callers caller with
    | .inside queue request false => state.fill caller queue request malloced
    | _ => none
  | .await caller =>
    match state.callers caller with
    | .inside queue _ true => state.onRing queue (.publish caller .await)
    | _ => none
  | .commit caller =>
    match state.callers caller with
    | .inside queue request true => state.commit caller queue request
    | _ => none
  | action => state.threadStep args iovMax action state.round

/-- What the pusher thread does at its queue, with what it has seen when it does
it. -/
inductive RoundMove (args : PusherArgs) (iovMax : Nat) (state : Outgoing) :
    OutgoingAction → Round → Outgoing → Prop
  | looks {queue : Queue} {current : Reader (List UInt8)} {next : Outgoing}
      (reading : state.reader queue = some current)
      (moves : state.onRing queue (.process 0 .look) = some next) :
      RoundMove args iovMax state .look (.looking queue) { next with
        round :=
          if current.next ≤ (state.rings queue).maxReadCursor then
            .limiting queue
          else .looking queue.following }
  | limits {queue : Queue} {next : Outgoing}
      (moves : state.onRing queue (.process 0 .limit) = some next) :
      RoundMove args iovMax state .limit (.limiting queue)
        { next with round := .draining queue }
  | completes {queue : Queue} {current : Reader (List UInt8)} {next : Outgoing}
      (reading : state.reader queue = some current)
      (pending : current.next ≤ current.limit)
      (room : state.vdata.length < iovMax)
      (completed : state.complete args queue current = some next) :
      RoundMove args iovMax state .complete (.draining queue) next
  | flushes {queue : Queue} (full : state.vdata.length = iovMax) :
      RoundMove args iovMax state .flush (.draining queue) { state with
        sink := state.sink ++ state.gather queue
        vdata := [] }
  | finishes {queue : Queue} {current : Reader (List UInt8)}
      (reading : state.reader queue = some current)
      (done : current.limit < current.next)
      (room : state.vdata.length < iovMax) :
      RoundMove args iovMax state .finish (.draining queue) { state with
        sink := state.sink ++ state.gather queue
        vdata := []
        round := .releasing queue }
  | releases {queue : Queue} {current : Reader (List UInt8)} {next : Outgoing}
      (reading : state.reader queue = some current)
      (moves : state.onRing queue (.process 0 (.release current.limit)) =
        some next) :
      RoundMove args iovMax state .release (.releasing queue)
        { next with round := .looking queue.following }

theorem roundMove_of_threadStep {args : PusherArgs} {iovMax : Nat}
    {state next : Outgoing} {action : OutgoingAction} {round : Round}
    (steps : state.threadStep args iovMax action round = some next) :
    RoundMove args iovMax state action round next := by
  unfold threadStep at steps
  split at steps
  case h_1 =>
    simp only [Option.bind_eq_bind, Option.bind_eq_some_iff, Option.some.injEq] at steps
    obtain ⟨current, reading, behind, moves, rfl⟩ := steps
    exact .looks reading moves
  case h_2 =>
    simp only [Option.bind_eq_bind, Option.bind_eq_some_iff, Option.some.injEq] at steps
    obtain ⟨behind, moves, rfl⟩ := steps
    exact .limits moves
  case h_3 =>
    simp only [Option.bind_eq_bind, Option.bind_eq_some_iff, Option.ite_none_right_eq_some] at steps
    obtain ⟨current, reading, ⟨pending, room⟩, completed⟩ := steps
    exact .completes reading pending room completed
  case h_4 =>
    obtain ⟨full, same⟩ := Option.ite_none_right_eq_some.mp steps
    cases same
    exact .flushes full
  case h_5 =>
    simp only [Option.bind_eq_bind, Option.bind_eq_some_iff,
      Option.ite_none_right_eq_some, Option.some.injEq] at steps
    obtain ⟨current, reading, ⟨done, room⟩, rfl⟩ := steps
    exact .finishes reading done room
  case h_6 =>
    simp only [Option.bind_eq_bind, Option.bind_eq_some_iff, Option.some.injEq] at steps
    obtain ⟨current, reading, behind, moves, rfl⟩ := steps
    exact .releases reading moves
  case h_7 => cases steps

end Outgoing

end MercuryFix
