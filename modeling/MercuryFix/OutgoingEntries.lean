import MercuryFix.DisruptorEntries
import MercuryFix.OutgoingQueues

/-!
# What the entries of an outgoing queue hold

A committed entry holds the request that was committed with it until the
pusher thread completes it in place, and an entry that is being filled belongs
to its caller.
-/

namespace MercuryFix

open ByteBlock

open Disruptor hiding Ring

/-- The requests that get through to an entry of the queue, provided that
their length fits the field for it. -/
structure Queue.Accepts (queue : Queue) (request : PushRequest) : Prop where
  short : request.msgType.length < msgTypeMaxLength
  small : request.data.length < 2 ^ 32
  fits : match queue with
    | .alfa => request.data.length ≤ alfaLimit
    | .bravo => True
    | .charlie => request.data.length ≤ charlieLimit

def Queue.Sized : Queue → List UInt8 → Prop
  | .alfa, memory => memory.length = 4096
  | .bravo, _ => True
  | .charlie, memory => memory.length = 512

structure QueueOk (queue : Queue) (ring : Disruptor.Ring (List UInt8))
    (callers : Nat → Caller) (committed : List PushRequest)
    (reader : Reader (List UInt8)) : Prop where
  consumed : Consumed queue.config ring reader
  sized : ∀ index, queue.Sized (ring.buffer index)
  accepts : ∀ p request filled, callers p = .inside queue request filled → queue.Accepts request
  filled : ∀ p request, callers p = .inside queue request true →
    ∃ sequence, (ring.publishers p).held = some sequence ∧
      Prepared request (ring.buffer (queue.config.index sequence))
  count : committed.length = ring.maxReadCursor
  accepted : ∀ request ∈ committed, queue.Accepts request
  prepared : ∀ index request, committed[index]? = some request →
    Prepared request (ring.committed (index + 1))

namespace Queue

variable {queue : Queue}

theorem sized_zero (queue : Queue) : queue.Sized queue.zero := by
  cases queue
  · exact List.length_replicate
  · trivial
  · exact List.length_replicate

theorem Sized.congr {memory other : List UInt8} (sized : queue.Sized memory)
    (same : other.length = memory.length) : queue.Sized other := by
  cases queue
  · exact same.trans sized
  · trivial
  · exact same.trans sized

def Fits : Queue → PushRequest → Prop
  | alfa, request => request.data.length ≤ alfaLimit
  | bravo, _ => True
  | charlie, request => request.data.length ≤ charlieLimit

theorem Accepts.toFits {request : PushRequest}
    (accepts : queue.Accepts request) : queue.Fits request := by
  cases queue <;> exact accepts.fits

theorem room_of_fits {request : PushRequest}
    {memory malloced block : List UInt8} (fits : queue.Fits request) (sized : queue.Sized memory)
    (blocks : queue.block request memory malloced = some block) :
    partialMsgOffset + request.data.length + fixBufferReservedTail ≤
      block.length ∧ queue.Sized block := by
  have reserved : partialMsgOffset = 260 := rfl
  have tail : fixBufferReservedTail = 4 := rfl
  have size : request.blockSize = request.data.length + 4 + 256 + 4 := rfl
  cases queue with
  | alfa =>
    cases blocks
    have bound : request.data.length ≤ 3828 := fits
    have length : memory.length = 4096 := sized
    exact ⟨by omega, sized⟩
  | bravo =>
    refine ⟨?_, trivial⟩
    rw [Queue.block] at blocks
    split at blocks
    · split at blocks <;> cases blocks
      omega
    · cases blocks
      omega
  | charlie =>
    cases blocks
    have bound : request.data.length ≤ 244 := fits
    have length : memory.length = 512 := sized
    exact ⟨by omega, sized⟩

end Queue

namespace Caller

/-- The request of a caller that has filled its entry of the queue. -/
def filledFor (queue : Queue) : Caller → Option PushRequest
  | inside other request true => if other = queue then some request else none
  | _ => none

variable {queue : Queue} {request : PushRequest}

theorem filledFor_eq_some {caller : Caller} :
    caller.filledFor queue = some request ↔ caller = .inside queue request true := by
  rcases caller with _ | ⟨other, asked, _ | _⟩ <;> simp [filledFor]

@[simp]
theorem filledFor_inside : (inside queue request true).filledFor queue = some request := if_pos rfl

theorem filledFor_update (callers : Nat → Caller) (p q : Nat) (now : Caller) :
    (Function.update callers p now q).filledFor queue =
      Function.update (fun q => (callers q).filledFor queue) p (now.filledFor queue) q := by
  simp only [Function.update_apply]
  split_ifs <;> rfl

end Caller

namespace QueueOk

variable {queue : Queue} {ring next : Disruptor.Ring (List UInt8)}
  {callers : Nat → Caller} {committed : List PushRequest}
  {reader : Reader (List UInt8)}

theorem registered (queue : Queue) :
    QueueOk queue (Disruptor.Ring.registered queue.zero) (fun _ => .outside) [] (.begin 0 1) where
  consumed := Consumed.registered queue.zero (by cases queue <;> decide)
  sized := fun _ => queue.sized_zero
  accepts := by simp
  filled := by simp
  count := rfl
  accepted := by simp
  prepared := by simp

theorem withCallers {now : Nat → Caller} (ok : QueueOk queue ring callers committed reader)
    (accepts : ∀ p request filled, now p = .inside queue request filled → queue.Accepts request)
    (filled : ∀ p request, now p = .inside queue request true →
      callers p = .inside queue request true) :
    QueueOk queue ring now committed reader :=
  { ok with
    accepts := accepts
    filled := fun p request inside =>
      ok.filled p request (filled p request inside) }

theorem tracked (ok : QueueOk queue ring callers committed reader) :
    Tracked queue.config ring reader Prepared (fun p => (callers p).filledFor queue) committed where
  consumed := ok.consumed
  written := fun p request found =>
    ok.filled p request (Caller.filledFor_eq_some.mp found)
  count := ok.count
  entries := ok.prepared

theorem of_tracked (tracked : Tracked queue.config ring reader Prepared
      (fun p => (callers p).filledFor queue) committed)
    (sized : ∀ index, queue.Sized (ring.buffer index))
    (accepts : ∀ p request filled, callers p = .inside queue request filled → queue.Accepts request)
    (accepted : ∀ request ∈ committed, queue.Accepts request) :
    QueueOk queue ring callers committed reader where
  consumed := tracked.consumed
  sized := sized
  accepts := accepts
  filled := fun p request inside =>
    tracked.written p request (Caller.filledFor_eq_some.mpr inside)
  count := tracked.count
  accepted := accepted
  prepared := tracked.entries

section Publishers

variable {p : Nat} {action : PublisherAction (List UInt8)}

section

variable (ok : QueueOk queue ring callers committed reader)
include ok

theorem turn (moves : PublisherMove queue.config ring p action next) (acquires : action.Acquires) :
    QueueOk queue next callers committed reader := by
  apply of_tracked (ok.tracked.turn moves acquires) _ ok.accepts ok.accepted
  cases moves with
  | turn => exact ok.sized
  | write => exact acquires.elim
  | commit => exact acquires.elim

theorem write {sequence : Nat} {request : PushRequest} {filled : List UInt8}
    (holds : ring.publishers p = .holding sequence)
    (inside : callers p = .inside queue request false) (prepared : Prepared request filled)
    (sized : queue.Sized filled) :
    QueueOk queue (ring.setEntry queue.config sequence filled)
      (Function.update callers p (.inside queue request true)) committed
      reader := by
  have tracked := ok.tracked.write holds prepared
  apply of_tracked (tracked.weaken _) _ _ ok.accepted
  · intro q other found
    rwa [Caller.filledFor_update, Caller.filledFor_inside] at found
  · intro index
    simp only [Disruptor.Ring.setEntry_buffer, Function.update_apply]
    split_ifs
    · exact sized
    · exact ok.sized index
  · intro q other isFilled callerInside
    rw [Function.update_apply] at callerInside
    split_ifs at callerInside
    · cases callerInside
      exact ok.accepts p request false inside
    · exact ok.accepts q other isFilled callerInside

theorem commit {request : PushRequest} (inside : callers p = .inside queue request true)
    (moves : PublisherMove queue.config ring p .commit next) :
    QueueOk queue next (Function.update callers p .outside) (committed ++ [request]) reader := by
  have tracked := ok.tracked.commit (Caller.filledFor_eq_some.mpr inside) moves
  apply of_tracked (tracked.weaken _)
  · cases moves with
    | turn _ _ acquires => exact acquires.elim
    | commit => exact ok.sized
  · intro q other filled callerInside
    rw [Function.update_apply] at callerInside
    split_ifs at callerInside
    exact ok.accepts q other filled callerInside
  · intro other member
    rcases List.mem_append.mp member with earlier | last
    · exact ok.accepted other earlier
    · rw [List.mem_singleton.mp last]
      exact ok.accepts p request true inside
  · intro q other found
    rwa [Caller.filledFor_update] at found

end

end Publishers

theorem process {after : Reader (List UInt8)} (ok : QueueOk queue ring callers committed reader)
    (consumed : Consumed queue.config next after)
    (publishers : next.publishers = ring.publishers)
    (readable : next.maxReadCursor = ring.maxReadCursor)
    (unchanged : next.committed = ring.committed)
    (sized : ∀ index, queue.Sized (next.buffer index))
    (kept : ∀ p sequence, (ring.publishers p).held = some sequence →
      next.buffer (queue.config.index sequence) =
        ring.buffer (queue.config.index sequence)) :
    QueueOk queue next callers committed after :=
  of_tracked (ok.tracked.process consumed publishers readable unchanged kept)
    sized ok.accepts ok.accepted

theorem next_request (ok : QueueOk queue ring callers committed reader)
    (readable : reader.next ≤ ring.maxReadCursor) :
    ∃ request, committed[reader.next - 1]? = some request ∧ queue.Accepts request ∧
      Prepared request (ring.buffer (queue.config.index reader.next)) := by
  obtain ⟨request, found, prepared⟩ := ok.tracked.next_note readable
  exact ⟨request, found, ok.accepted request (List.mem_of_getElem? found), prepared⟩

end QueueOk

end MercuryFix
