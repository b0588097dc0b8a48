import MercuryFix.DisruptorConsumer
import MercuryFix.FixPushBuffer

/-!
# The incoming queues

The splitter puts application messages on delta and session messages on echo.
Any number of threads take messages from delta under the guard of the first
`pop`, registered poppers take them without it by the second one, and one thread
takes messages from echo.  Each atomic operation is a step, and so are the reads
and the writes of an entry, which belongs to one thread meanwhile.

`init` registers entry processor 0 on both queues before the splitter runs.
Popper `k` is entry processor `k + 1` of delta.  A data pointer is the number of
the `malloc` that it comes from.  A message of `2 ^ 32` bytes or more overruns its
block in the splitter and is left out here.

The committed messages, what the pops have returned and which entries the
poppers have taken are not in the source.
-/

namespace MercuryFix

open ByteBlock

open Disruptor hiding Ring step

/-- The content of an entry of delta, and a `RawMessage`. -/
structure DeltaContent where
  size : Nat
  msgtypeOffset : Nat
  data : Option Nat
  deriving DecidableEq

def DeltaContent.zero : DeltaContent := ⟨0, 0, none⟩

structure EchoMessage where
  msgtypeOffset : Nat
  data : List UInt8
  deriving DecidableEq

def deltaConfig : Config := ⟨7, 8⟩

def echoConfig : Config := ⟨9, 1⟩

def echoEntrySize : Nat := 512

def EchoMessage.text (message : EchoMessage) : List UInt8 :=
  setu32 message.data.length ++ setu32 message.msgtypeOffset ++ message.data

def readEcho (content : List UInt8) : EchoMessage where
  msgtypeOffset := getu32 (content.drop 4)
  data := (content.drop 8).take (getu32 content)

/-- Where the splitter stands between its publications.  It starts with an entry
of each queue.  Behind the BodyLength of a message it has the total length. -/
inductive Publishing
  | askingDelta (first : Bool)
  | scanningDelta (first : Bool)
  | askingEcho
  | scanningEcho
  | splitting (total : Option Nat)
  | committingDelta (message : DeltaContent)
  | committingEcho (message : EchoMessage)
  deriving DecidableEq

inductive GuardedPop
  | outside
  | fetching
  | looking (n : Nat)
  | limiting (n : Nat)
  | raising (n : Nat)
  | taking (n : Nat)
  | clearing (n : Nat) (message : DeltaContent)
  | releasing (n : Nat) (message : DeltaContent)
  | leaving (message : DeltaContent)
  deriving DecidableEq

inductive SessionPop
  | outside
  | looking (n : Nat)
  | limiting (n : Nat)
  | reading (n : Nat)
  deriving DecidableEq

inductive LockfreePop
  | outside
  | looking
  | limiting
  | taking
  | clearing
  | releasing
  deriving DecidableEq

structure PopQueues where
  delta : Disruptor.Ring DeltaContent
  echo : Disruptor.Ring (List UInt8)
  guard : Option Nat
  deltaN : Nat
  deltaCursorUpperLimit : Nat
  echoN : Nat
  echoCursorUpperLimit : Nat
  splitter : Publishing
  mallocs : Nat
  threads : Nat → GuardedPop
  session : SessionPop
  poppers : Nat → LockfreePop
  messages : Nat → List DeltaContent
  deltaCommitted : List DeltaContent
  echoCommitted : List EchoMessage
  popped : List (Nat × DeltaContent)
  sessionPopped : List EchoMessage
  taken : List (Nat × Nat)

inductive SplitterInput
  | go
  | fill (total : Nat)
  | deliver (msgtypeOffset : Nat)
  | deliverSession (message : EchoMessage)

/-- The steps of a popper: those of `register_popper`, those of its calls of
`pop`, and `unregister_popper`. -/
inductive LockfreeAction
  | register (action : ProcessorAction DeltaContent)
  | go
  | unregister

/-- The steps of the system.  `inSitu` is the session thread at work on the
message that it has been given. -/
inductive PopAction
  | splitter (input : SplitterInput)
  | pop (thread : Nat)
  | sessionPop
  | inSitu (content : List UInt8)
  | popper (k : Nat) (action : LockfreeAction)

/-- The atomic operations of `entry_processor_barrier_register`. -/
def registers : ProcessorAction DeltaContent → Bool
  | .load | .swap _ | .check | .store => true
  | _ => false

namespace PopQueues

def init : PopQueues where
  delta := Disruptor.Ring.registered .zero
  echo := Disruptor.Ring.registered (List.replicate echoEntrySize 0)
  guard := none
  deltaN := 1
  deltaCursorUpperLimit := 1
  echoN := 1
  echoCursorUpperLimit := 1
  splitter := .askingDelta true
  mallocs := 0
  threads := fun _ => .outside
  session := .outside
  poppers := fun _ => .outside
  messages := fun _ => []
  deltaCommitted := []
  echoCommitted := []
  popped := []
  sessionPopped := []
  taken := []

def onDelta (state : PopQueues) (action : Action DeltaContent) :
    Option PopQueues :=
  (Disruptor.step deltaConfig state.delta action).map fun ring =>
    { state with delta := ring }

def onEcho (state : PopQueues) (action : Action (List UInt8)) :
    Option PopQueues :=
  (Disruptor.step echoConfig state.echo action).map fun ring =>
    { state with echo := ring }

section Splitter

def deltaEntry (state : PopQueues) : Option DeltaContent :=
  match state.delta.publishers 0 with
  | .holding sequence =>
    some (state.delta.buffer (deltaConfig.index sequence))
  | _ => none

def echoEntry (state : PopQueues) : Option (List UInt8) :=
  match state.echo.publishers 0 with
  | .holding sequence => some (state.echo.buffer (echoConfig.index sequence))
  | _ => none

/-- An entry behind the BodyLength of a message.  Its block is used again if it is
large enough. -/
def filled (mallocs total : Nat) (entry : DeltaContent) : DeltaContent :=
  if entry.size < total then
    { entry with size := total, data := some mallocs }
  else { entry with size := total }

def splitterStep (state : PopQueues) (input : SplitterInput) :
    Option PopQueues :=
  match state.splitter, input with
  | .askingDelta first, .go =>
    (state.onDelta (.publish 0 .nextEntryBlocking)).map fun next =>
      { next with splitter := .scanningDelta first }
  | .scanningDelta first, .go =>
    (state.onDelta (.publish 0 .scan)).map fun next =>
      match next.delta.publishers 0 with
      | .holding _ =>
        { next with
          splitter := if first then .askingEcho else .splitting none }
      | _ => next
  | .askingEcho, .go =>
    (state.onEcho (.publish 0 .nextEntryBlocking)).map fun next =>
      { next with splitter := .scanningEcho }
  | .scanningEcho, .go =>
    (state.onEcho (.publish 0 .scan)).map fun next =>
      match next.echo.publishers 0 with
      | .holding _ => { next with splitter := .splitting none }
      | _ => next
  | .splitting _, .fill total => do
      let entry ← state.deltaEntry
      if 0 < total ∧ total < 2 ^ 32 then
        (state.onDelta (.publish 0 (.write
          (filled state.mallocs total entry)))).map fun next =>
            { next with
              mallocs := state.mallocs + 1
              splitter := .splitting (some total) }
      else none
  | .splitting (some _), .deliver msgtypeOffset => do
      let entry ← state.deltaEntry
      let message := { entry with msgtypeOffset := msgtypeOffset % 2 ^ 32 }
      (state.onDelta (.publish 0 (.write message))).map fun next =>
        { next with splitter := .committingDelta message }
  | .splitting (some total), .deliverSession message => do
      let content ← state.echoEntry
      if message.data.length = total ∧ message.msgtypeOffset < 2 ^ 32 then do
        let written ← memcpy content 0 message.text
        (state.onEcho (.publish 0 (.write written))).map fun next =>
          { next with splitter := .committingEcho message }
      else none
  | .committingDelta message, .go =>
    match state.delta.publishers 0 with
    | .adding _ =>
      (state.onDelta (.publish 0 .commit)).map fun next =>
        { next with
          deltaCommitted := state.deltaCommitted ++ [message]
          splitter := .askingDelta false }
    | _ => state.onDelta (.publish 0 .await)
  | .committingEcho message, .go =>
    match state.echo.publishers 0 with
    | .adding _ =>
      (state.onEcho (.publish 0 .commit)).map fun next =>
        { next with
          echoCommitted := state.echoCommitted ++ [message]
          splitter := .askingEcho }
    | _ => state.onEcho (.publish 0 .await)
  | _, _ => none

end Splitter

section Pops

def setThread (state : PopQueues) (thread : Nat) (place : GuardedPop) :
    PopQueues :=
  { state with threads := Function.update state.threads thread place }

/-- A step of a thread in the guarded `pop`, or its entry. -/
def popStep (state : PopQueues) (thread : Nat) : Option PopQueues :=
  match state.threads thread with
  | .outside =>
    if state.guard = none then
      some ({ state with guard := some thread }.setThread thread .fetching)
    else none
  | .fetching =>
    some ({ state with deltaN := state.deltaN + 1 }.setThread thread
      (if state.deltaN = state.deltaCursorUpperLimit then
        .looking state.deltaN
      else .taking state.deltaN))
  | .looking n =>
    (state.onDelta (.process 0 .look)).map (·.setThread thread
      (if state.deltaCursorUpperLimit ≤ state.delta.maxReadCursor then
        .limiting n
      else .looking n))
  | .limiting n =>
    (state.onDelta (.process 0 .limit)).map fun next =>
      { next with
        deltaCursorUpperLimit := state.delta.maxReadCursor }.setThread thread (.raising n)
  | .raising n =>
    some ({ state with
      deltaCursorUpperLimit := state.deltaCursorUpperLimit + 1 }.setThread thread (.taking n))
  | .taking n =>
    (state.onDelta (.process 0 .read)).map (·.setThread thread
      (.clearing n (state.delta.buffer (deltaConfig.index n))))
  | .clearing n message =>
    (state.onDelta (.process 0 (.overwrite .zero))).map (·.setThread thread (.releasing n message))
  | .releasing n message =>
    (state.onDelta (.process 0 (.release n))).map (·.setThread thread (.leaving message))
  | .leaving message =>
    some ({ state with
      guard := none
      popped := state.popped ++ [(thread, message)] }.setThread thread .outside)

/-- A step of the session thread in `session_pop`, or its call. -/
def sessionStep (state : PopQueues) : Option PopQueues :=
  match state.session with
  | .outside =>
    (state.onEcho (.process 0 (.release (state.echoN - 1)))).map fun next =>
      { next with
        echoN := state.echoN + 1
        session :=
          if state.echoN = state.echoCursorUpperLimit then
            .looking state.echoN
          else .reading state.echoN }
  | .looking n =>
    (state.onEcho (.process 0 .look)).map fun next =>
      { next with
        session :=
          if state.echoCursorUpperLimit ≤ state.echo.maxReadCursor then
            .limiting n
          else .looking n }
  | .limiting n =>
    (state.onEcho (.process 0 .limit)).map fun next =>
      { next with
        echoCursorUpperLimit := state.echo.maxReadCursor + 1
        session := .reading n }
  | .reading n =>
    (state.onEcho (.process 0 .read)).map fun next =>
      { next with
        session := .outside
        sessionPopped := state.sessionPopped ++
          [readEcho (state.echo.buffer (echoConfig.index n))] }

def setPopper (state : PopQueues) (k : Nat) (place : LockfreePop) :
    PopQueues :=
  { state with poppers := Function.update state.poppers k place }

def popperReader (state : PopQueues) (k : Nat) :
    Option (Reader DeltaContent) :=
  match state.delta.processors (k + 1) with
  | .reading reader => some reader
  | _ => none

/-- A step of a registered popper in the lock-free `pop`. -/
def lockfreeStep (state : PopQueues) (k : Nat) (reader : Reader DeltaContent) : Option PopQueues :=
  match state.poppers k with
  | .outside => some (state.setPopper k .looking)
  | .looking =>
    (state.onDelta (.process (k + 1) .look)).map (·.setPopper k
      (if reader.next ≤ state.delta.maxReadCursor then .limiting
      else .looking))
  | .limiting =>
    (state.onDelta (.process (k + 1) .limit)).map (·.setPopper k .taking)
  | .taking =>
    let entry := state.delta.buffer (deltaConfig.index reader.next)
    (state.onDelta (.process (k + 1) .read)).map fun next =>
      { next with
        messages := Function.update state.messages k (state.messages k ++ [entry])
        taken := state.taken ++ [(k, reader.next)] }.setPopper k .clearing
  | .clearing =>
    let entry := state.delta.buffer (deltaConfig.index (reader.next - 1))
    (state.onDelta (.process (k + 1) (.overwrite
      { entry with size := 0, data := none }))).map (·.setPopper k
        (if reader.next ≤ reader.limit then .taking else .releasing))
  | .releasing =>
    (state.onDelta (.process (k + 1) (.release reader.limit))).map (·.setPopper k .outside)

def popperStep (state : PopQueues) (k : Nat) :
    LockfreeAction → Option PopQueues
  | .register action =>
    if registers action then state.onDelta (.process (k + 1) action)
    else none
  | .go => do
      let reader ← state.popperReader k
      state.lockfreeStep k reader
  | .unregister =>
    if state.poppers k = .outside then
      state.onDelta (.process (k + 1) .unregister)
    else none

end Pops

def step (state : PopQueues) : PopAction → Option PopQueues
  | .splitter input => state.splitterStep input
  | .pop thread => state.popStep thread
  | .sessionPop => state.sessionStep
  | .inSitu content =>
    if state.session = .outside ∧ state.sessionPopped ≠ [] ∧
        content.length = echoEntrySize then
      state.onEcho (.process 0 (.overwrite content))
    else none
  | .popper k action => state.popperStep k action

section Moves

variable {state next : PopQueues}

theorem onDelta_eq_some {action : Action DeltaContent} : state.onDelta action = some next ↔
      ∃ ring, Disruptor.step deltaConfig state.delta action = some ring ∧
        { state with delta := ring } = next :=
  Option.map_eq_some_iff

theorem onEcho_eq_some {action : Action (List UInt8)} : state.onEcho action = some next ↔
      ∃ ring, Disruptor.step echoConfig state.echo action = some ring ∧
        { state with echo := ring } = next :=
  Option.map_eq_some_iff

theorem sessionStep_frame (steps : state.sessionStep = some next) :
    ∃ echo echoN limit session popped, next = { state with
        echo := echo
        echoN := echoN
        echoCursorUpperLimit := limit
        session := session
        sessionPopped := popped } := by
  unfold sessionStep at steps
  split at steps
  all_goals
    obtain ⟨behind, enters, rfl⟩ := Option.map_eq_some_iff.mp steps
    obtain ⟨ring, -, rfl⟩ := onEcho_eq_some.mp enters
    exact ⟨_, _, _, _, _, rfl⟩

/-- What a step of the splitter does. -/
inductive SplitterMove (state : PopQueues) : PopQueues → Prop
  | asksDelta {first : Bool} {ring : Disruptor.Ring DeltaContent}
      (standing : state.splitter = .askingDelta first)
      (steps : Disruptor.step deltaConfig state.delta
        (.publish 0 .nextEntryBlocking) = some ring) :
      SplitterMove state
        { state with delta := ring, splitter := .scanningDelta first }
  | scansDelta {first : Bool} {ring : Disruptor.Ring DeltaContent}
      {place : Publishing} (standing : state.splitter = .scanningDelta first)
      (steps : Disruptor.step deltaConfig state.delta (.publish 0 .scan) =
        some ring)
      (goes : place = .scanningDelta first ∨
        (∃ sequence, ring.publishers 0 = .holding sequence) ∧
          (place = .askingEcho ∨ place = .splitting none)) :
      SplitterMove state { state with delta := ring, splitter := place }
  | asksEcho {ring : Disruptor.Ring (List UInt8)}
      (standing : state.splitter = .askingEcho)
      (steps : Disruptor.step echoConfig state.echo
        (.publish 0 .nextEntryBlocking) = some ring) :
      SplitterMove state { state with echo := ring, splitter := .scanningEcho }
  | scansEcho {ring : Disruptor.Ring (List UInt8)} {place : Publishing}
      (standing : state.splitter = .scanningEcho)
      (steps : Disruptor.step echoConfig state.echo (.publish 0 .scan) =
        some ring)
      (goes : place = .scanningEcho ∨ place = .splitting none) :
      SplitterMove state { state with echo := ring, splitter := place }
  | fills {before : Option Nat} {total : Nat} {entry : DeltaContent}
      {ring : Disruptor.Ring DeltaContent}
      (standing : state.splitter = .splitting before)
      (holds : state.deltaEntry = some entry) (positive : 0 < total)
      (small : total < 2 ^ 32)
      (steps : Disruptor.step deltaConfig state.delta (.publish 0 (.write
        (filled state.mallocs total entry))) = some ring) :
      SplitterMove state
        { state with
          delta := ring
          mallocs := state.mallocs + 1
          splitter := .splitting (some total) }
  | delivers {total msgtypeOffset : Nat} {entry : DeltaContent}
      {ring : Disruptor.Ring DeltaContent}
      (standing : state.splitter = .splitting (some total))
      (holds : state.deltaEntry = some entry)
      (steps : Disruptor.step deltaConfig state.delta (.publish 0 (.write
        { entry with msgtypeOffset := msgtypeOffset % 2 ^ 32 })) = some ring) :
      SplitterMove state
        { state with
          delta := ring
          splitter := .committingDelta
            { entry with msgtypeOffset := msgtypeOffset % 2 ^ 32 } }
  | deliversSession {total : Nat} {message : EchoMessage}
      {content written : List UInt8} {ring : Disruptor.Ring (List UInt8)}
      (standing : state.splitter = .splitting (some total))
      (holds : state.echoEntry = some content)
      (length : message.data.length = total)
      (offset : message.msgtypeOffset < 2 ^ 32)
      (fits : memcpy content 0 message.text = some written)
      (steps : Disruptor.step echoConfig state.echo
        (.publish 0 (.write written)) = some ring) :
      SplitterMove state
        { state with echo := ring, splitter := .committingEcho message }
  | awaitsDelta {message : DeltaContent} {ring : Disruptor.Ring DeltaContent}
      (standing : state.splitter = .committingDelta message)
      (steps : Disruptor.step deltaConfig state.delta (.publish 0 .await) =
        some ring) :
      SplitterMove state { state with delta := ring }
  | commitsDelta {message : DeltaContent} {ring : Disruptor.Ring DeltaContent}
      (standing : state.splitter = .committingDelta message)
      (steps : Disruptor.step deltaConfig state.delta (.publish 0 .commit) =
        some ring) :
      SplitterMove state
        { state with
          delta := ring
          deltaCommitted := state.deltaCommitted ++ [message]
          splitter := .askingDelta false }
  | awaitsEcho {message : EchoMessage} {ring : Disruptor.Ring (List UInt8)}
      (standing : state.splitter = .committingEcho message)
      (steps : Disruptor.step echoConfig state.echo (.publish 0 .await) =
        some ring) :
      SplitterMove state { state with echo := ring }
  | commitsEcho {message : EchoMessage} {ring : Disruptor.Ring (List UInt8)}
      (standing : state.splitter = .committingEcho message)
      (steps : Disruptor.step echoConfig state.echo (.publish 0 .commit) =
        some ring) :
      SplitterMove state
        { state with
          echo := ring
          echoCommitted := state.echoCommitted ++ [message]
          splitter := .askingEcho }

theorem splitterStep_moves {input : SplitterInput} (steps : state.splitterStep input = some next) :
    SplitterMove state next := by
  unfold splitterStep at steps
  split at steps
  case h_1 first standing =>
    obtain ⟨behind, enters, rfl⟩ := Option.map_eq_some_iff.mp steps
    obtain ⟨ring, moves, rfl⟩ := onDelta_eq_some.mp enters
    exact .asksDelta standing moves
  case h_2 first standing =>
    obtain ⟨behind, enters, rfl⟩ := Option.map_eq_some_iff.mp steps
    obtain ⟨ring, moves, rfl⟩ := onDelta_eq_some.mp enters
    split
    · rename_i sequence holds
      refine .scansDelta standing moves (.inr ⟨⟨sequence, holds⟩, ?_⟩)
      cases first
      · exact .inr rfl
      · exact .inl rfl
    · exact .scansDelta standing moves (.inl standing)
  case h_3 standing =>
    obtain ⟨behind, enters, rfl⟩ := Option.map_eq_some_iff.mp steps
    obtain ⟨ring, moves, rfl⟩ := onEcho_eq_some.mp enters
    exact .asksEcho standing moves
  case h_4 standing =>
    obtain ⟨behind, enters, rfl⟩ := Option.map_eq_some_iff.mp steps
    obtain ⟨ring, moves, rfl⟩ := onEcho_eq_some.mp enters
    split
    · exact .scansEcho standing moves (.inr rfl)
    · exact .scansEcho standing moves (.inl standing)
  case h_5 before total standing =>
    obtain ⟨entry, holds, rest⟩ := Option.bind_eq_some_iff.mp steps
    obtain ⟨bounds, rest⟩ := Option.ite_none_right_eq_some.mp rest
    obtain ⟨behind, enters, rfl⟩ := Option.map_eq_some_iff.mp rest
    obtain ⟨ring, moves, rfl⟩ := onDelta_eq_some.mp enters
    exact .fills standing holds bounds.1 bounds.2 moves
  case h_6 total msgtypeOffset standing =>
    obtain ⟨entry, holds, rest⟩ := Option.bind_eq_some_iff.mp steps
    obtain ⟨behind, enters, rfl⟩ := Option.map_eq_some_iff.mp rest
    obtain ⟨ring, moves, rfl⟩ := onDelta_eq_some.mp enters
    exact .delivers standing holds moves
  case h_7 total message standing =>
    obtain ⟨content, holds, rest⟩ := Option.bind_eq_some_iff.mp steps
    obtain ⟨bounds, rest⟩ := Option.ite_none_right_eq_some.mp rest
    obtain ⟨written, fits, rest⟩ := Option.bind_eq_some_iff.mp rest
    obtain ⟨behind, enters, rfl⟩ := Option.map_eq_some_iff.mp rest
    obtain ⟨ring, moves, rfl⟩ := onEcho_eq_some.mp enters
    exact .deliversSession standing holds bounds.1 bounds.2 fits moves
  case h_8 message standing =>
    split at steps
    · obtain ⟨behind, enters, rfl⟩ := Option.map_eq_some_iff.mp steps
      obtain ⟨ring, moves, rfl⟩ := onDelta_eq_some.mp enters
      exact .commitsDelta standing moves
    · obtain ⟨ring, moves, rfl⟩ := onDelta_eq_some.mp steps
      exact .awaitsDelta standing moves
  case h_9 message standing =>
    split at steps
    · obtain ⟨behind, enters, rfl⟩ := Option.map_eq_some_iff.mp steps
      obtain ⟨ring, moves, rfl⟩ := onEcho_eq_some.mp enters
      exact .commitsEcho standing moves
    · obtain ⟨ring, moves, rfl⟩ := onEcho_eq_some.mp steps
      exact .awaitsEcho standing moves
  case h_10 => cases steps

end Moves

end PopQueues

end MercuryFix
