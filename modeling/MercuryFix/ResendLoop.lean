import MercuryFix.DisruptorConsumer
import MercuryFix.OutgoingQueues
import MercuryFix.SentMessages

/-!
# Resending

`resend` composes a message for every row that it has read, puts it on the queue
romeo and takes it from there again.  All of that happens in one thread while
the pusher thread is paused, so a call that would block does not return and is
modelled as `none`, like a write outside of a block.
-/

namespace MercuryFix

open DecimalText ByteBlock TransitionSystem

open Disruptor hiding Ring step

def romeoConfig : Config := ⟨7, 1⟩

/-- An empty romeo with its entry processor registered.  An entry is the block
that its pointer leads to. -/
def romeoRegistered : Disruptor.Ring (List UInt8) := Disruptor.Ring.registered []

def romeoRequest (now : Timeval) (exposed : Exposed) : PushRequest where
  data := exposed.partialMsg
  msgType := cString exposed.msgType
  ttlSec := ((expireTime now exposed.ttl).sec % 2 ^ 64).toNat
  ttlUsec := ((expireTime now exposed.ttl).usec % 2 ^ 64).toNat
  noNul := noNul_cString exposed.msgType

/-- `push_to_romeo`, and whether it returns an error. -/
def pushToRomeo (error : Bool) (input : RowInput) (exposed : Exposed)
    (romeo : Disruptor.Ring (List UInt8)) :
    Option (Disruptor.Ring (List UInt8) × Bool) :=
  let request := romeoRequest input.pushClock exposed
  if msgTypeMaxLength < request.msgType.length + 1 then some (romeo, true)
  else do
    let acquired ← run (Disruptor.step romeoConfig) romeo
      [.publish 0 .nextEntryBlocking, .publish 0 .scan, .publish 0 .scan]
    match acquired.publishers 0 with
    | .holding sequence => do
        let memory := acquired.buffer (romeoConfig.index sequence)
        let block :=
          if memory.length < request.blockSize then
            input.malloced request.blockSize
          else memory
        let filled ← fillEntry request block
        let committed ← run (Disruptor.step romeoConfig) acquired
          [.publish 0 (.write filled), .publish 0 .await, .publish 0 .commit]
        some (committed, error)
    | _ => none

/-- What `resend` works with.  `exposed` is the length that the last `expose`
has left in `len`, as long as the block that its other results lead to is still
there. -/
structure Resending where
  tx : FixMessageTX
  exposed : Option Nat
  romeo : Disruptor.Ring (List UInt8)
  seqnum : Nat
  stored : List SentRecord
  written : List (List UInt8)

/-- The loop of `push_romeo` over `count` entries.  The messages are handed to
`do_writev` as they stand in their entries. -/
def completeRomeo (args : PusherArgs) : Nat → Resending → Option Resending
  | 0, state => some state
  | count + 1, state =>
    match state.romeo.processors 0 with
    | .reading reader => do
        let buffer := state.romeo.buffer (romeoConfig.index reader.next)
        let completed ← completeFIXMessage args state.seqnum buffer (getLengthOfPartialMsg buffer)
        let romeo ← run (Disruptor.step romeoConfig) state.romeo
          [.process 0 .read, .process 0 (.overwrite completed.buffer)]
        completeRomeo args count
          { state with
            romeo := romeo
            seqnum := completed.msgSeqNumber
            stored := state.stored ++ [completed.stored]
            written := state.written ++ [completed.bytes] }
    | _ => none

/-- `push_romeo` with a sink that takes everything. -/
def pushRomeo (args : PusherArgs) (state : Resending) : Option Resending := do
  let sighted ← run (Disruptor.step romeoConfig) state.romeo [.process 0 .look, .process 0 .limit]
  match sighted.processors 0 with
  | .reading reader => do
      let completed ← completeRomeo args (reader.limit + 1 - reader.next)
        { state with romeo := sighted }
      let released ← run (Disruptor.step romeoConfig) completed.romeo
        [.process 0 (.release reader.limit)]
      some { completed with romeo := released }
  | _ => none

/-- The message that `resend` composes for a row, and whether it goes on. -/
def composeRow (version : FixVersion) (input : RowInput) (seqnum : Nat)
    (pmsg : StoredMessage) (tx : FixMessageTX) :
    Option (FixMessageTX × Bool) :=
  if pmsg.length = 0 then do
    let cloned ← tx.cloneFrom pmsg
    let typed ← cloned.1.appendField 35 (ascii ['4'])
    let filling ← typed.1.appendField 123 (ascii ['Y'])
    let numbered ← filling.1.appendField 36 (render ((seqnum + 1) % 2 ^ 64))
    let timed ← numbered.1.appendField 52 (sendingTime version input.stampClock)
    some (timed.1, true)
  else do
    let updated ← updateSendingtime tx.soh version input.stampClock pmsg
    let cloned ← tx.cloneFrom updated.1
    if cloned.2 then
      let appended ← cloned.1.appendField 122 updated.2
      some (appended.1, true)
    else some (cloned.1, false)

/-- What `resend` passes to `push_to_romeo`.  When `expose` refuses, that is
what it has passed before, through pointers to the same block. -/
def handedOut (state : Resending) (pmsg : StoredMessage) (tx : FixMessageTX) :
    Option Exposed → Option Exposed
  | some exposed => some exposed
  | none =>
    if pmsg.length = 0 ∨ state.tx.buf.length < pmsg.length then none
    else state.exposed.map fun len => ⟨tx.ttl, len, tx.buf, tx.msgType⟩

/-- One turn of the loop of `resend`, and whether it goes on. -/
def resendRow (args : PusherArgs) (version : FixVersion) (error : Bool)
    (input : RowInput) (pmsg : StoredMessage) (state : Resending) :
    Option (Resending × Bool) := do
  let composed ← composeRow version input state.seqnum pmsg state.tx
  if composed.2 then do
    let exposing ← composed.1.expose
    let exposed ← handedOut state pmsg composed.1 exposing.2
    let pushed ← pushToRomeo error input exposed state.romeo
    let pending : Resending :=
      { state with
        tx := exposing.1
        exposed := some exposed.len
        romeo := pushed.1 }
    if pushed.2 then some (pending, false)
    else do
      let sent ← pushRomeo args pending
      some ({ sent with seqnum := (sent.seqnum + 1) % 2 ^ 64 }, true)
  else some ({ state with tx := composed.1 }, false)

/-- The loop of `resend` from row `n` on, and whether it gets to the end. -/
def resendRows (args : PusherArgs) (version : FixVersion) (error : Bool) (inputs : Nat → RowInput) :
    Nat → List StoredMessage → Resending → Option (Resending × Bool)
  | _, [], state => some (state, true)
  | n, pmsg :: rest, state => do
      let row ← resendRow args version error (inputs n) pmsg state
      if row.2 then resendRows args version error inputs (n + 1) rest row.1
      else some row

/-- The state in which `resend` gets to its loop. -/
def Resending.begin (soh : UInt8) (romeo : Disruptor.Ring (List UInt8))
    (start : Nat) : Resending where
  tx := .init soh
  exposed := none
  romeo := romeo
  seqnum := (start + (2 ^ 64 - 1)) % 2 ^ 64
  stored := []
  written := []

/-- `resend` from the rows that it has read up to its label `out`, and whether
it returns 0. -/
def resend (args : PusherArgs) (version : FixVersion) (error : Bool)
    (inputs : Nat → RowInput) (romeo : Disruptor.Ring (List UInt8))
    (start : Nat) (messages : List StoredMessage) :
    Option (Resending × Bool) :=
  resendRows args version error inputs 0 messages (.begin args.soh romeo start)

end MercuryFix
