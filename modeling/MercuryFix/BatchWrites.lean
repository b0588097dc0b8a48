import Mathlib.Algebra.Order.BigOperators.Group.List
import MercuryFix.CompletionInPlace
import MercuryFix.ResendLoop

/-!
# Draining a batch of entries

The pusher thread gathers the messages of a batch in an array of `iovec` and hands
it to `do_writev` whenever it is full and once at the end.  The index starts anew
behind a full array, the running total of the bytes does not.

`returns` are the results of the successive calls of `do_writev`.
-/

namespace MercuryFix

open ByteBlock

open Disruptor (Config)

/-- The arguments of a call of `do_writev`: the total and the messages that the
array points to. -/
structure WriteCall where
  total : Nat
  iov : List CompletedMessage
  deriving DecidableEq

/-- The variables of the loop over a batch, and the calls so far.  The index is the
length of `vdata`. -/
structure Batch where
  msgSeqNumber : Nat
  vdata : List CompletedMessage
  total : Nat
  calls : List WriteCall

/-- What draining leaves behind; `released` when the entries are given back and the
cursor has moved. -/
structure BatchResult where
  returned : Nat
  msgSeqNumber : Nat
  calls : List WriteCall
  released : Bool

namespace Batch

/-- Complete the message of an entry and add it to the array. -/
def gather (args : PusherArgs) (batch : Batch) (content : List UInt8) :
    Option Batch :=
  (completeFIXMessage args batch.msgSeqNumber content
      (getLengthOfPartialMsg content)).map fun completed =>
    { batch with
      msgSeqNumber := completed.msgSeqNumber
      vdata := batch.vdata ++ [completed]
      total := (batch.total + completed.msgLength) % 2 ^ 64 }

/-- The call of `do_writev`, behind which the array is filled from its start. -/
def write (batch : Batch) : Batch :=
  { batch with
    vdata := []
    calls := batch.calls ++ [⟨batch.total, batch.vdata⟩] }

/-- The loop over the entries, with the result of a call that fails. -/
def loop (args : PusherArgs) (iovMax : Nat) (returns : Nat → Nat) :
    List (List UInt8) → Batch → Option (Batch × Nat)
  | [], batch => some (batch, 0)
  | content :: rest, batch =>
    (batch.gather args content).bind fun gathered =>
      if gathered.vdata.length = iovMax then
        if returns gathered.calls.length ≠ 0 then
          some (gathered.write, returns gathered.calls.length)
        else loop args iovMax returns rest gathered.write
      else loop args iovMax returns rest gathered

/-- The part of the four functions behind the barrier. -/
def drain (args : PusherArgs) (iovMax : Nat) (returns : Nat → Nat)
    (msgSeqNumber : Nat) (entries : List (List UInt8)) : Option BatchResult :=
  (loop args iovMax returns entries ⟨msgSeqNumber, [], 0, []⟩).map
    fun (batch, retv) =>
      if retv ≠ 0 then ⟨retv, batch.msgSeqNumber, batch.calls, false⟩
      else
        ⟨returns batch.calls.length, batch.msgSeqNumber, batch.write.calls,
          returns batch.calls.length == 0⟩

/-- The functions that only look whether there are entries. -/
def drainNonblocking (args : PusherArgs) (iovMax : Nat) (returns : Nat → Nat)
    (msgSeqNumber : Nat) (entries : List (List UInt8)) : Option BatchResult :=
  if entries = [] then some ⟨0, msgSeqNumber, [], false⟩
  else drain args iovMax returns msgSeqNumber entries

def pushAlfa := drainNonblocking

def pushBravo := drainNonblocking

def pushCharlie := drainNonblocking

/-- `push_romeo` waits until there is an entry, so that it does not return without
one.  While resending its batches have one entry, see `MercuryFix.pushRomeo`. -/
def pushRomeo (args : PusherArgs) (iovMax : Nat) (returns : Nat → Nat)
    (msgSeqNumber : Nat) (entries : List (List UInt8)) : Option BatchResult :=
  if entries = [] then none else drain args iovMax returns msgSeqNumber entries

end Batch

inductive DrainedRing
  | alfa
  | bravo
  | charlie
  | romeo

def DrainedRing.config : DrainedRing → Config
  | alfa => Queue.alfa.config
  | bravo => Queue.bravo.config
  | charlie => Queue.charlie.config
  | romeo => romeoConfig

def DrainedRing.push : DrainedRing → PusherArgs → Nat → (Nat → Nat) → Nat →
    List (List UInt8) → Option BatchResult
  | alfa => Batch.pushAlfa
  | bravo => Batch.pushBravo
  | charlie => Batch.pushCharlie
  | romeo => Batch.pushRomeo

/-- The call that fills the entries of a ring, and the kind of these entries. -/
def DrainedRing.filledBy : DrainedRing → PushCall × Queue
  | alfa => (.push, .alfa)
  | bravo => (.push, .bravo)
  | charlie => (.sessionPush, .charlie)
  | romeo => (.pushToRomeo, .bravo)

section Specification

def lengthSum (messages : List CompletedMessage) : Nat :=
  (messages.map CompletedMessage.msgLength).sum

/-- Every call passes its own total and some message, and together they pass the
messages of all entries once and in order. -/
structure Accounted (args : PusherArgs) (msgSeqNumber : Nat)
    (entries : List (List UInt8)) (calls : List WriteCall) : Prop where
  totals : ∀ call ∈ calls, call.total = lengthSum call.iov
  nonempty : ∀ call ∈ calls, call.iov ≠ []
  passed : completeAll args msgSeqNumber entries = some (calls.flatMap WriteCall.iov)

def DrainedRing.Committed (ring : DrainedRing) (content : List UInt8) : Prop :=
  ∃ request memory malloced block,
    ring.filledBy.1.entry request = some ring.filledBy.2 ∧
    ring.filledBy.2.Sized memory ∧
    ring.filledBy.2.block request memory malloced = some block ∧
    fillEntry request block = some content

end Specification

section Messages

variable {args : PusherArgs} {ring : DrainedRing}

theorem lengthSum_append (first second : List CompletedMessage) :
    lengthSum (first ++ second) = lengthSum first + lengthSum second := by
  simp [lengthSum]

/-- A message is never empty, and far from the size of a `size_t`. -/
def CompletedMessage.Moderate (message : CompletedMessage) : Prop :=
  0 < message.msgLength ∧ message.msgLength < 2 ^ 33

theorem fillEntry_of_entry {call : PushCall} {queue : Queue} {request : PushRequest}
    {memory malloced block : List UInt8} (admitted : call.entry request = some queue)
    (sized : queue.Sized memory) (blocks : queue.block request memory malloced = some block) :
    ∃ content, fillEntry request block = some content ∧
      request.msgType.length < msgTypeMaxLength ∧ Prepared request content := by
  obtain ⟨short, fits⟩ := fits_of_entry admitted
  obtain ⟨room, -⟩ := Queue.room_of_fits fits sized blocks
  obtain ⟨content, fills, prepared, -⟩ := fillEntry_prepared short room
  exact ⟨content, fills, short, prepared⟩

theorem committed_of_entry (ring : DrainedRing) (request : PushRequest)
    {memory block : List UInt8} (malloced : List UInt8)
    (admitted : ring.filledBy.1.entry request = some ring.filledBy.2)
    (sized : ring.filledBy.2.Sized memory)
    (blocks : ring.filledBy.2.block request memory malloced = some block) :
    ∃ content, ring.Committed content := by
  obtain ⟨content, fills, -⟩ := fillEntry_of_entry admitted sized blocks
  exact ⟨content, request, memory, malloced, block, admitted, sized, blocks, fills⟩

theorem DrainedRing.Committed.completes {content : List UInt8}
    (committed : ring.Committed content) (startFits : args.fixStart.length ≤ 31)
    (msgSeqNumber : Nat) :
    ∃ completed, completeFIXMessage args msgSeqNumber content
        (getLengthOfPartialMsg content) = some completed ∧ completed.Moderate := by
  obtain ⟨request, memory, malloced, block, admitted, sized, blocks, fills⟩ := committed
  obtain ⟨filled, fillsToo, short, prepared⟩ := fillEntry_of_entry admitted sized blocks
  cases fills.symm.trans fillsToo
  obtain ⟨completed, completes, -, before, reaches⟩ :=
    prepared.completes_stored (Nat.lt_succ_of_le startFits) short msgSeqNumber
  have stored : getLengthOfPartialMsg content < 2 ^ 32 := by
    rw [prepared.getLengthOfPartialMsg]
    exact Nat.mod_lt _ (by omega)
  have reserved : partialMsgOffset = 260 := rfl
  have tail : fixBufferReservedTail = 4 := rfl
  exact ⟨completed, completes, by omega, by omega⟩

theorem completeAll_of_committed {entries : List (List UInt8)}
    (committed : ∀ content ∈ entries, ring.Committed content)
    (startFits : args.fixStart.length ≤ 31) (msgSeqNumber : Nat) :
    ∃ messages, completeAll args msgSeqNumber entries = some messages ∧
      messages.length = entries.length ∧ ∀ message ∈ messages, message.Moderate := by
  induction entries generalizing msgSeqNumber with
  | nil => exact ⟨[], rfl, rfl, by simp⟩
  | cons content entries induction =>
    obtain ⟨completed, completes, moderate⟩ :=
      (committed content (by simp)).completes startFits msgSeqNumber
    obtain ⟨messages, rest, lengths, moderates⟩ := induction
      (fun other member => committed other (List.mem_cons_of_mem _ member))
      completed.msgSeqNumber
    refine ⟨completed :: messages, ?_, by simp [lengths], ?_⟩
    · rw [completeAll, completes, Option.bind_eq_bind, Option.bind_some, rest]
      rfl
    · intro message member
      rcases List.mem_cons.mp member with rfl | later
      · exact moderate
      · exact moderates message later

theorem lengthSum_lt {messages : List CompletedMessage}
    (moderate : ∀ message ∈ messages, message.Moderate)
    (few : messages.length ≤ 2 ^ 10) : lengthSum messages < 2 ^ 64 := by
  have bound : lengthSum messages ≤ messages.length * 2 ^ 33 := by
    have each : ∀ length ∈ messages.map CompletedMessage.msgLength, length ≤ 2 ^ 33 := by
      intro length member
      obtain ⟨message, present, rfl⟩ := List.mem_map.mp member
      exact (moderate message present).2.le
    have total := List.sum_le_card_nsmul _ _ each
    simpa [lengthSum] using total
  have small : messages.length * 2 ^ 33 ≤ 2 ^ 10 * 2 ^ 33 := Nat.mul_le_mul_right _ few
  omega

theorem lengthSum_pos {messages : List CompletedMessage}
    (moderate : ∀ message ∈ messages, message.Moderate) (nonempty : messages ≠ []) :
    0 < lengthSum messages := by
  cases messages with
  | nil => exact absurd rfl nonempty
  | cons message messages =>
    have positive := (moderate message (by simp)).1
    simp only [lengthSum, List.map_cons, List.sum_cons]
    omega

end Messages

section Loop

variable {args : PusherArgs} {iovMax : Nat} {batch : Batch}
  {passed : List CompletedMessage}

/-- The loop behind these messages: the total counts all of them, the array holds
those behind the last call. -/
structure Gathered (iovMax : Nat) (passed : List CompletedMessage) (batch : Batch) :
    Prop where
  total : batch.total = lengthSum passed % 2 ^ 64
  kept : batch.calls.flatMap WriteCall.iov ++ batch.vdata = passed
  room : batch.vdata.length < iovMax
  full : ∀ call ∈ batch.calls, call.iov.length = iovMax

theorem gathered_start (positive : 1 ≤ iovMax) (msgSeqNumber : Nat) :
    Gathered iovMax [] ⟨msgSeqNumber, [], 0, []⟩ :=
  ⟨rfl, rfl, positive, by simp⟩

theorem Gathered.gather (gathered : Gathered iovMax passed batch)
    (positive : 1 ≤ iovMax) {content : List UInt8} {completed : CompletedMessage}
    (completes : completeFIXMessage args batch.msgSeqNumber content
      (getLengthOfPartialMsg content) = some completed) :
    ∃ next, batch.gather args content = some next ∧ next.msgSeqNumber = completed.msgSeqNumber ∧
      next.vdata.length = batch.vdata.length + 1 ∧
      if next.vdata.length = iovMax then
        Gathered iovMax (passed ++ [completed]) next.write
      else Gathered iovMax (passed ++ [completed]) next := by
  have kept := gathered.kept
  have total : (batch.total + completed.msgLength) % 2 ^ 64 =
      lengthSum (passed ++ [completed]) % 2 ^ 64 := by
    rw [gathered.total, lengthSum_append, Nat.mod_add_mod]
    simp [lengthSum]
  refine ⟨_, by rw [Batch.gather, completes]; rfl, rfl, by simp, ?_⟩
  dsimp only
  split
  · rename_i isFull
    refine ⟨total, ?_, positive, ?_⟩
    · simp [Batch.write, ← kept]
    · intro call member
      rcases List.mem_append.mp member with earlier | last
      · exact gathered.full call earlier
      · rw [List.mem_singleton.mp last]
        exact isFull
  · rename_i notFull
    refine ⟨total, by simp [← kept], ?_, gathered.full⟩
    have room := gathered.room
    simp only [List.length_append, List.length_singleton] at notFull ⊢
    omega

theorem Gathered.loop {entries : List (List UInt8)}
    {messages : List CompletedMessage} (gathered : Gathered iovMax passed batch)
    (positive : 1 ≤ iovMax) (returns : Nat → Nat)
    (completes : completeAll args batch.msgSeqNumber entries = some messages)
    (quiet : (∀ count, returns count = 0) ∨ passed.length + entries.length < iovMax) :
    ∃ next, Batch.loop args iovMax returns entries batch = some (next, 0) ∧
      Gathered iovMax (passed ++ messages) next := by
  induction entries generalizing batch passed messages with
  | nil =>
    cases completes
    exact ⟨batch, rfl, by simpa using gathered⟩
  | cons content entries induction =>
    rw [completeAll] at completes
    obtain ⟨completed, first, rest⟩ := Option.bind_eq_some_iff.mp completes
    obtain ⟨later, laterCompletes, both⟩ := Option.bind_eq_some_iff.mp rest
    cases both
    obtain ⟨next, gathers, numbered, longer, kept⟩ := gathered.gather positive first
    rw [← numbered] at laterCompletes
    have fewer : (∀ count, returns count = 0) ∨
        (passed ++ [completed]).length + entries.length < iovMax := by
      refine quiet.imp_right fun small => ?_
      simp only [List.length_cons] at small
      simp only [List.length_append, List.length_singleton]
      omega
    rw [Batch.loop, gathers, Option.bind_some, ← List.singleton_append, ← List.append_assoc]
    by_cases isFull : next.vdata.length = iovMax
    · have silent : returns next.calls.length = 0 := by
        rcases quiet with never | small
        · exact never _
        · have within := congrArg List.length gathered.kept
          rw [List.length_append] at within
          simp only [List.length_cons] at small
          omega
      rw [if_pos isFull] at kept ⊢
      rw [if_neg (by simp [silent])]
      exact induction kept laterCompletes fewer
    · rw [if_neg isFull] at kept ⊢
      exact induction kept laterCompletes fewer

theorem Gathered.calls_eq_nil (gathered : Gathered iovMax passed batch)
    (few : passed.length < iovMax) : batch.calls = [] := by
  cases written : batch.calls with
  | nil => rfl
  | cons call calls =>
    have isFull := gathered.full call (by simp [written])
    have within := congrArg List.length gathered.kept
    rw [written, List.flatMap_cons, List.length_append, List.length_append] at within
    omega

end Loop

section Accounting

variable {args : PusherArgs} {iovMax : Nat} {ring : DrainedRing}
  {entries : List (List UInt8)}

theorem DrainedRing.push_eq_drain (ring : DrainedRing) (nonempty : entries ≠ [])
    (returns : Nat → Nat) (msgSeqNumber : Nat) :
    ring.push args iovMax returns msgSeqNumber entries =
      Batch.drain args iovMax returns msgSeqNumber entries := by
  cases ring <;> exact if_neg nonempty

theorem drain_gathered (returns : Nat → Nat) (msgSeqNumber : Nat)
    (positive : 1 ≤ iovMax) (startFits : args.fixStart.length ≤ 31)
    (committed : ∀ content ∈ entries, ring.Committed content) (bounded : entries.length ≤ 2 ^ 10)
    (quiet : (∀ count, returns count = 0) ∨ entries.length < iovMax) :
    ∃ result batch messages, Batch.drain args iovMax returns msgSeqNumber entries = some result ∧
      completeAll args msgSeqNumber entries = some messages ∧
      messages.length = entries.length ∧
      (∀ message ∈ messages, message.Moderate) ∧
      Gathered iovMax messages batch ∧ batch.total = lengthSum messages ∧
      result.calls = batch.calls ++ [⟨batch.total, batch.vdata⟩] := by
  obtain ⟨messages, completes, lengths, moderate⟩ :=
    completeAll_of_committed committed startFits msgSeqNumber
  obtain ⟨batch, loops, gathered⟩ := (gathered_start positive msgSeqNumber).loop
    positive returns completes (by simpa using quiet)
  have total : batch.total = lengthSum messages := by
    rw [gathered.total, List.nil_append]
    exact Nat.mod_eq_of_lt (lengthSum_lt moderate (lengths ▸ bounded))
  refine ⟨_, batch, messages, by rw [Batch.drain, loops]; rfl, completes, lengths,
    moderate, by simpa using gathered, total, rfl⟩

def shortEntry : List UInt8 := (fillEntry shortRequest (List.replicate 4096 0)).getD []

theorem committed_shortEntry : DrainedRing.alfa.Committed shortEntry := by
  have admitted : PushCall.push.entry shortRequest = some .alfa := rfl
  have sized : Queue.alfa.Sized (List.replicate 4096 0) := List.length_replicate
  have blocks : Queue.alfa.block shortRequest (List.replicate 4096 0) [] =
      some (List.replicate 4096 0) := rfl
  obtain ⟨content, fills, -⟩ := fillEntry_of_entry admitted sized blocks
  refine ⟨shortRequest, _, [], _, admitted, sized, blocks, ?_⟩
  rw [shortEntry, fills]
  rfl

theorem committed_replicate {content : List UInt8} (committed : ring.Committed content)
    (count : Nat) : ∀ other ∈ List.replicate count content, ring.Committed other := by
  intro other member
  rwa [List.eq_of_mem_replicate member]

def longRequest : PushRequest := { shortRequest with data := List.replicate (alfaLimit + 1) 0 }

theorem length_longRequest : longRequest.data.length = alfaLimit + 1 := List.length_replicate

theorem DrainedRing.exists_committed (ring : DrainedRing) : ∃ content, ring.Committed content := by
  have allocated (request : PushRequest) : Queue.bravo.block request []
      (List.replicate request.blockSize 0) = some (List.replicate request.blockSize 0) := by
    have size : request.blockSize = request.data.length + 4 + 256 + 4 := rfl
    rw [Queue.block, if_pos (by rw [List.length_nil]; omega), if_pos List.length_replicate]
  cases ring with
  | alfa => exact ⟨shortEntry, committed_shortEntry⟩
  | bravo =>
    refine committed_of_entry .bravo longRequest _ ?_ trivial (allocated longRequest)
    have long := length_longRequest
    exact (if_neg (by decide)).trans (if_neg (by omega))
  | charlie =>
    exact committed_of_entry .charlie shortRequest [] rfl
      (show Queue.charlie.Sized (List.replicate 512 0) from List.length_replicate)
      rfl
  | romeo =>
    exact committed_of_entry .romeo shortRequest _ rfl trivial (allocated shortRequest)

theorem accounted_of_lt {returns : Nat → Nat} {msgSeqNumber : Nat}
    (startFits : args.fixStart.length ≤ 31) (nonempty : entries ≠ [])
    (committed : ∀ content ∈ entries, ring.Committed content)
    (bounded : entries.length ≤ 2 ^ 10) (few : entries.length < iovMax) :
    ∃ result, Batch.drain args iovMax returns msgSeqNumber entries = some result ∧
      Accounted args msgSeqNumber entries result.calls := by
  obtain ⟨result, batch, messages, drains, completes, lengths, -, gathered, total,
    calls⟩ := drain_gathered returns msgSeqNumber (by omega) startFits committed bounded (.inr few)
  have unwritten := gathered.calls_eq_nil (lengths ▸ few)
  have all : batch.vdata = messages := by
    have kept := gathered.kept
    rwa [unwritten, List.flatMap_nil, List.nil_append] at kept
  rw [unwritten, List.nil_append, total, all] at calls
  refine ⟨result, drains, ?_, ?_, ?_⟩
  · intro call member
    rw [calls, List.mem_singleton] at member
    rw [member]
  · intro call member
    rw [calls, List.mem_singleton] at member
    rw [member]
    rintro rfl
    exact nonempty (List.length_eq_zero_iff.mp lengths.symm)
  · rw [completes, calls, List.flatMap_singleton]

/-- Behind a full array the total still counts the messages that are out. -/
theorem not_accounted_of_le (msgSeqNumber : Nat) (positive : 1 ≤ iovMax)
    (startFits : args.fixStart.length ≤ 31)
    (committed : ∀ content ∈ entries, ring.Committed content)
    (bounded : entries.length ≤ 2 ^ 10) (many : iovMax ≤ entries.length) :
    ∃ result, Batch.drain args iovMax (fun _ => 0) msgSeqNumber entries = some result ∧
      ¬ Accounted args msgSeqNumber entries result.calls := by
  obtain ⟨result, batch, messages, drains, -, lengths, moderate, gathered, total,
    calls⟩ := drain_gathered (fun _ => 0) msgSeqNumber positive
      startFits committed bounded (.inl fun _ => rfl)
  refine ⟨result, drains, fun accounted => ?_⟩
  have last : batch.total = lengthSum batch.vdata :=
    accounted.totals ⟨batch.total, batch.vdata⟩ (by simp [calls])
  have kept := gathered.kept
  have out : batch.calls.flatMap WriteCall.iov ≠ [] := by
    intro none
    rw [none, List.nil_append] at kept
    have room := gathered.room
    rw [kept, lengths] at room
    omega
  have counted : 0 < lengthSum (batch.calls.flatMap WriteCall.iov) :=
    lengthSum_pos (fun message member => moderate message
      (kept ▸ List.mem_append_left _ member)) out
  rw [total, ← kept, lengthSum_append] at last
  omega

theorem DrainedRing.capacity_le (ring : DrainedRing) : ring.config.capacity ≤ 2 ^ 10 := by
  cases ring <;> decide

/-- The calls for a batch account for it exactly when the array does not fill up. -/
theorem batch_accounted_iff (ring : DrainedRing) (args : PusherArgs)
    (startFits : args.fixStart.length ≤ 31) {iovMax count : Nat}
    (positive : 1 ≤ iovMax) (nonempty : 1 ≤ count) (bounded : count ≤ ring.config.capacity) :
    (∀ (msgSeqNumber : Nat) (entries : List (List UInt8)) (returns : Nat → Nat),
      entries.length = count → (∀ content ∈ entries, ring.Committed content) →
      ∃ result, ring.push args iovMax returns msgSeqNumber entries = some result ∧
        Accounted args msgSeqNumber entries result.calls) ↔ count < iovMax := by
  have small := bounded.trans ring.capacity_le
  constructor
  · intro accounts
    by_contra many
    obtain ⟨content, committed⟩ := ring.exists_committed
    have all := committed_replicate committed count
    have length : (List.replicate count content).length = count :=
      List.length_replicate
    obtain ⟨result, pushes, accounted⟩ :=
      accounts 0 (List.replicate count content) (fun _ => 0) length all
    obtain ⟨other, drains, wrong⟩ := not_accounted_of_le 0 positive
      startFits all (by omega) (by omega)
    rw [ring.push_eq_drain (List.ne_nil_of_length_pos (by omega)), drains] at pushes
    cases pushes
    exact wrong accounted
  · intro few msgSeqNumber entries returns length committed
    have nonempty : entries ≠ [] := List.ne_nil_of_length_pos (by omega)
    rw [ring.push_eq_drain nonempty]
    exact accounted_of_lt startFits nonempty committed (by omega) (by omega)

def shortArgs : PusherArgs := ⟨ascii ['8', '=', '9', '='], 1⟩

theorem batch_accounted_two :
    ∃ result, Batch.pushAlfa shortArgs 1024 (fun _ => 0) 41
        (List.replicate 2 shortEntry) = some result ∧
      Accounted shortArgs 41 (List.replicate 2 shortEntry)
        result.calls :=
  (batch_accounted_iff .alfa shortArgs (by decide) (by decide)
    (by decide) (by decide)).mpr (by decide : 2 < 1024) 41 _ _ rfl
      (committed_replicate committed_shortEntry 2)

/-- With room for two messages, the call behind the full array passes the bytes of all
three with the last of them, or with none at all.  A full alfa is such a batch where
the array has 1024 places. -/
theorem full_array_miscounted :
    DrainedRing.alfa.Committed shortEntry ∧
    (Batch.pushAlfa shortArgs 2 (fun _ => 0) 41
      (List.replicate 3 shortEntry)).map (fun result => result.calls.map
        fun call => (call.total, call.iov.map CompletedMessage.msgLength)) =
      some [(50, [25, 25]), (75, [25])] ∧
    (Batch.pushAlfa shortArgs 2 (fun _ => 0) 41
      (List.replicate 2 shortEntry)).map (fun result => result.calls.map
        fun call => (call.total, call.iov.map CompletedMessage.msgLength)) =
      some [(50, [25, 25]), (50, [])] ∧
    ∃ result, Batch.pushAlfa shortArgs 1024 (fun _ => 0) 41
        (List.replicate 1024 shortEntry) = some result ∧
      ¬ Accounted shortArgs 41 (List.replicate 1024 shortEntry)
        result.calls := by
  refine ⟨committed_shortEntry, by decide +kernel, by decide +kernel, ?_⟩
  have full : (List.replicate 1024 shortEntry).length = 1024 := List.length_replicate
  obtain ⟨result, drains, wrong⟩ := not_accounted_of_le 41 (by decide : 1 ≤ 1024)
    (by decide : shortArgs.fixStart.length ≤ 31)
    (committed_replicate committed_shortEntry 1024) full.le full.ge
  refine ⟨result, ?_, wrong⟩
  exact (DrainedRing.alfa.push_eq_drain (List.ne_nil_of_length_pos (by omega)) _
    _).trans drains

end Accounting

end MercuryFix
