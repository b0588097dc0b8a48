import MercuryFix.ResendLoop

/-!
# The threads of the pusher

One thread calls `init`, `start`, `stop` and `resend`, any number of threads
push, and the pusher thread takes the messages from the queues.  Every access to
a flag or to `msg_seq_number_` is a step of its own, and so is every call of the
database; `started_` belongs to the calling thread.  The loop of `resend` is one
step, and the last `close` of the pusher thread succeeds.

`stopped` is not in the source: it records that a `stop` has returned since the
pause flag was last cleared.
-/

namespace MercuryFix

open ByteBlock

open Disruptor hiding Ring step

inductive AfterStop
  | returns
  | reads (start stop : Nat)
  deriving DecidableEq

/-- Where the thread that calls `init`, `start`, `stop` and `resend` stands. -/
inductive PusherCaller
  | idle
  | pausing (after : AfterStop)
  | awaitingClosed (after : AfterStop)
  | resuming
  | awaitingOpen
  | loading (start stop : Nat)
  | reading (start stop origSeqnum : Nat)
  | resending (start origSeqnum : Nat) (messages : List StoredMessage)
  | restoring (origSeqnum : Nat)
  deriving DecidableEq

inductive PusherPlace
  | absent
  | entering
  | top
  | storing
  | closing
  | clearing
  | waiting
  | loading
  | opening
  | flagging
  | pushing
  | unregistering (queue : Queue)
  | closingLast
  | clearingLast
  | ended
  deriving DecidableEq

structure Pusher (Path : Type*) where
  initialised : Bool
  pauseThread : Bool
  dbIsOpen : Bool
  started : Bool
  msgSeqNumber : Nat
  fixStart : BeginString
  fixVer : FixVersion
  sinkFd : Int
  error : Bool
  db : MsgDB Path SentRecord
  romeo : Disruptor.Ring (List UInt8)
  outgoing : Outgoing
  caller : PusherCaller
  thread : PusherPlace
  stopped : Bool

structure PusherSettings (Path : Type*) where
  localCache : Option Path
  fixVer : Option (List UInt8)
  sinkFd : Int

/-- The steps of the pusher thread: one that its place determines, a `close`
that fails, one of the loop over the queues, and a `do_writev` that fails behind
some bytes. -/
inductive PusherThreadAction
  | go
  | closeFails
  | work (action : OutgoingAction)
  | writeFails (count : Nat)

inductive PusherAction (Path : Type*)
  | init (localCache : Option Path)
  | start (settings : PusherSettings Path)
  | stop
  | resend (start stop : Nat)
  | control (inputs : Nat → RowInput)
  | thread (action : PusherThreadAction)
  | push (action : OutgoingAction)

def OutgoingAction.byCaller : OutgoingAction → Bool
  | push .. | sessionPush .. | scan _ | fill .. | await _ | commit _ => true
  | look | limit | complete | flush | finish | release => false

def fixVersionOf (version : List UInt8) : FixVersion :=
  ([(ascii "CUSTOM".toList, .custom), (ascii "FIX.4.0".toList, .fix40),
    (ascii "FIX.4.1".toList, .fix41), (ascii "FIX.4.2".toList, .fix42),
    (ascii "FIX.4.3".toList, .fix43), (ascii "FIX.4.4".toList, .fix44),
    (ascii "FIX.5.0".toList, .fix50), (ascii "FIX.5.0.SP1".toList, .fix50SP1),
    (ascii "FIX.5.0.SP2".toList, .fix50SP2),
    (ascii "FIXT.1.1".toList, .fixT11)].lookup version).getD .custom

theorem fixVersionOf_fixVersionString (version : FixVersion) :
    fixVersionOf (fixVersionString version) = version := by
  cases version <;> decide +kernel

namespace Pusher

variable {Path : Type*}

def constructed (files : Path → List (UInt64 × SentRecord)) : Pusher Path where
  initialised := false
  pauseThread := true
  dbIsOpen := false
  started := false
  msgSeqNumber := 0
  fixStart := .empty
  fixVer := .custom
  sinkFd := -1
  error := false
  db := ⟨none, none, files⟩
  romeo := romeoRegistered
  outgoing := .init 0
  caller := .idle
  thread := .absent
  stopped := false

def args (soh : UInt8) (state : Pusher Path) : PusherArgs := ⟨state.fixStart.text, soh⟩

def stopReturns (state : Pusher Path) : AfterStop → Pusher Path
  | .returns => { state with stopped := true, caller := .idle }
  | .reads start stop =>
    { state with stopped := true, caller := .loading start stop }

/-- `stop` up to its first access to a shared flag. -/
def stop (state : Pusher Path) (after : AfterStop) : Pusher Path :=
  if state.started then { state with caller := .pausing after }
  else state.stopReturns after

/-- `init`, whose allocations and calls of the database succeed.  Only the first
call with a path opens the database and creates the thread. -/
def init (state : Pusher Path) (localCache : Option Path) :
    Option (Pusher Path) :=
  if state.initialised then some (state.stop .returns)
  else
    match localCache with
    | none => some { state with pauseThread := true }
    | some path =>
      (state.db.setDbPath path).openPath.bind fun db =>
        db.latest.map fun latest =>
          { state with
            initialised := true
            pauseThread := true
            dbIsOpen := true
            msgSeqNumber := latest
            db := db
            thread := .entering
            stopped := false }

/-- The part of `start` that looks at its arguments, and whether it gets to
the pause flag. -/
def configure (soh : UInt8) (state : Pusher Path)
    (settings : PusherSettings Path) : Pusher Path × Bool :=
  let version :=
    match settings.fixVer with
    | some version =>
      if 32 ≤ version.length then none
      else some (BeginString.ofVersion soh version, fixVersionOf version)
    | none => some (state.fixStart, state.fixVer)
  match version with
  | none => (state, false)
  | some (fixStart, fixVer) =>
    let state := { state with fixStart := fixStart, fixVer := fixVer }
    if state.fixStart.text = [] then (state, false)
    else
      let state :=
        if 0 ≤ settings.sinkFd then { state with sinkFd := settings.sinkFd }
        else state
      if state.sinkFd < 0 then (state, false)
      else
        match settings.localCache with
        | some path => ({ state with db := state.db.setDbPath path }, true)
        | none => (state, true)

/-- `start` up to its first access to a shared flag. -/
def start (soh : UInt8) (state : Pusher Path) (settings : PusherSettings Path) : Pusher Path :=
  if state.started then state
  else
    let configured := state.configure soh settings
    if configured.2 then { configured.1 with caller := .resuming }
    else configured.1

variable [DecidableEq Path]

/-- The database behind some calls of `store_sent_msg`. -/
def storeSent (db : MsgDB Path SentRecord) (records : List SentRecord) :
    MsgDB Path SentRecord :=
  records.foldl (fun db record => db.store record.seqnum record) db

/-- A step of the calling thread inside one of its calls. -/
def controlStep (soh : UInt8) (state : Pusher Path)
    (inputs : Nat → RowInput) : Option (Pusher Path) :=
  match state.caller with
  | .idle => none
  | .pausing after =>
    some { state with pauseThread := true, caller := .awaitingClosed after }
  | .awaitingClosed after =>
    if state.dbIsOpen then some state
    else some ({ state with started := false }.stopReturns after)
  | .resuming =>
    some { state with
      pauseThread := false
      stopped := false
      caller := .awaitingOpen }
  | .awaitingOpen =>
    if state.dbIsOpen then some { state with started := true, caller := .idle }
    else some state
  | .loading start stop =>
    some { state with caller := .reading start stop state.msgSeqNumber }
  | .reading start stop origSeqnum =>
    (state.db.getSentMsgs inputs start stop).map fun rows =>
      { state with
        caller := .resending start origSeqnum (rows.map Prod.snd) }
  | .resending start origSeqnum messages =>
    (MercuryFix.resend (state.args soh) state.fixVer state.error inputs
      state.romeo start messages).map fun result =>
        { state with
          romeo := result.1.romeo
          db := storeSent state.db result.1.stored
          outgoing := { state.outgoing with
            sink := state.outgoing.sink ++ result.1.written.flatten }
          caller := .restoring origSeqnum }
  | .restoring origSeqnum =>
    some ({ state with
      msgSeqNumber := origSeqnum
      caller := .idle }.start soh ⟨none, none, -1⟩)

def work (soh : UInt8) (iovMax : Nat) (state : Pusher Path)
    (action : OutgoingAction) : Option (Pusher Path) :=
  (state.outgoing.threadStep (state.args soh) iovMax action
    state.outgoing.round).map fun next =>
      { state with
        outgoing := next
        db := storeSent state.db (next.stored.drop state.outgoing.stored.length)
        thread :=
          match next.round with
          | .looking .alfa => .top
          | _ => .pushing }

def writeFails (soh : UInt8) (iovMax : Nat) (state : Pusher Path)
    (count : Nat) : Option (Pusher Path) :=
  let writes (action : OutgoingAction) :=
    (state.outgoing.threadStep (state.args soh) iovMax action state.outgoing.round).isSome
  match state.outgoing.round with
  | .draining queue =>
    if writes .flush || writes .finish then
      some { state with
        error := true
        outgoing := { state.outgoing with
          sink := state.outgoing.sink ++ (state.outgoing.gather queue).take count }
        thread := .unregistering .alfa }
    else none
  | _ => none

/-- A step of `pusher_thread_func`.  An `abort` is modelled as none. -/
def threadStep (soh : UInt8) (iovMax : Nat) (temporary : Path → Bool)
    (state : Pusher Path) (action : PusherThreadAction) :
    Option (Pusher Path) :=
  match state.thread, action with
  | .entering, .go =>
    some { state with
      outgoing := { state.outgoing with msgSeqNumber := state.msgSeqNumber }
      thread := .top }
  | .top, .go =>
    some { state with
      thread := if state.pauseThread then .storing else .pushing }
  | .storing, .go =>
    some { state with
      msgSeqNumber := state.outgoing.msgSeqNumber
      thread := .closing }
  | .closing, .go =>
    some { state with db := state.db.close temporary, thread := .clearing }
  | .closing, .closeFails => some { state with thread := .top }
  | .clearing, .go =>
    some { state with dbIsOpen := false, thread := .waiting }
  | .waiting, .go =>
    some { state with
      thread := if state.pauseThread then .waiting else .loading }
  | .loading, .go =>
    some { state with
      outgoing := { state.outgoing with msgSeqNumber := state.msgSeqNumber }
      thread := .opening }
  | .opening, .go =>
    state.db.openPath.map fun db =>
      { state with db := db, thread := .flagging }
  | .flagging, .go =>
    some { state with dbIsOpen := true, thread := .pushing }
  | .pushing, .work action => state.work soh iovMax action
  | .pushing, .writeFails count => state.writeFails soh iovMax count
  | .unregistering queue, .go =>
    (state.outgoing.onRing queue (.process 0 .unregister)).map fun next =>
      { state with
        outgoing := next
        thread :=
          if queue = .charlie then .closingLast
          else .unregistering queue.following }
  | .closingLast, .go =>
    some { state with
      db := state.db.close temporary
      thread := .clearingLast }
  | .clearingLast, .go =>
    some { state with dbIsOpen := false, thread := .ended }
  | _, _ => none

def step (soh : UInt8) (iovMax : Nat) (temporary : Path → Bool)
    (state : Pusher Path) : PusherAction Path → Option (Pusher Path)
  | .init localCache =>
    if state.caller = .idle then state.init localCache else none
  | .start settings =>
    if state.caller = .idle then some (state.start soh settings) else none
  | .stop =>
    if state.caller = .idle then some (state.stop .returns) else none
  | .resend start stop =>
    if state.caller = .idle then some (state.stop (.reads start stop))
    else none
  | .control inputs => state.controlStep soh inputs
  | .thread action => state.threadStep soh iovMax temporary action
  | .push action =>
    if state.initialised && action.byCaller then
      (state.outgoing.step (state.args soh) iovMax action).map fun next =>
        { state with outgoing := next }
    else none

end Pusher

end MercuryFix
