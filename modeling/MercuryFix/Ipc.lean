import MercuryFix.Marshal
import MercuryFix.FixMsgTypes

/-!
# The commands between the processes

A frame is a header of two numbers, the command and the length of the data, with the
data behind it.  `vsend_cmd` puts it together in a static buffer, one call after the
other under its mutex, and `recv_cmd` takes it from the stream.

What the calls of `send` and `recvfrom` return is given: `none` is an error, and a
list that comes to its end stands for a call that does not return.  The calls of
`set_recv_timeout` succeed.
-/

namespace MercuryFix

open ByteBlock

def ipcDatalengthOffset : Nat := 4

def ipcHeaderSize : Nat := 8

def ipcResultSize : Nat := 12

def ipcBufferSize : Nat := 8 * 1024

def ipcdataGetCmd (ipcdata : List UInt8) : Nat := getu32 ipcdata

def ipcdataGetDatalen (ipcdata : List UInt8) : Nat := getu32 (ipcdata.drop ipcDatalengthOffset)

def ipcdataGetData (ipcdata : List UInt8) : List UInt8 := ipcdata.drop ipcHeaderSize

def ipcdataSetHeader (cmd : UInt32) (datalen : Nat) (ipcdata : List UInt8) :
    Option (List UInt8) := do
  let ipcdata ← memcpy ipcdata 0 (setu32 cmd.toNat)
  memcpy ipcdata ipcDatalengthOffset (setu32 datalen)

section Send

/-- The bytes that the socket takes, and whether `send_all` returns 1. -/
def sendAll : List UInt8 → List (Option Nat) → Option (List UInt8 × Bool)
  | [], _ => some ([], true)
  | _ :: _, [] => none
  | _ :: _, none :: _ => some ([], false)
  | byte :: bytes, some n :: results =>
    if (byte :: bytes).length < n then none
    else do
      let (wire, done) ← sendAll ((byte :: bytes).drop n) results
      some ((byte :: bytes).take n ++ wire, done)

structure IpcCall (Double : Type) where
  cmd : UInt32
  format : List UInt8
  args : List (Arg Double)

/-- The static buffer behind a call, what the socket has taken, and what the call
returns. -/
structure IpcOutcome where
  buf : List UInt8
  wire : List UInt8
  returned : Nat
  deriving DecidableEq

variable {Double : Type} (ieee : Ieee754 Double)

/-- `vmarshal` is not called when there is nothing to marshal. -/
def marshalData (call : IpcCall Double) (len : Nat) (data : List UInt8) :
    Option Marshalled :=
  if len = 0 then some ⟨true, 0, data⟩
  else vmarshal ieee data len call.format call.args

/-- The part of `vsend_cmd` under the mutex. -/
def sendFrame (call : IpcCall Double) (len : Nat) (buf : List UInt8)
    (sends : List (Option Nat)) : Option IpcOutcome := do
  let buf ← ipcdataSetHeader call.cmd len buf
  let marshalled ← marshalData ieee call len (buf.drop ipcHeaderSize)
  let buf := buf.take ipcHeaderSize ++ marshalled.buf
  if marshalled.done then
    let len := marshalled.count + ipcHeaderSize
    let (wire, done) ← sendAll (buf.take len) sends
    some ⟨buf, wire, if done then len else 0⟩
  else some ⟨buf, [], 0⟩

def vsendCmd (buf : List UInt8) (call : IpcCall Double)
    (sends : List (Option Nat)) : Option IpcOutcome :=
  if call.cmd = 0 then some ⟨buf, [], 0⟩
  else do
    let len ← vmarshalSize call.format call.args
    if ipcBufferSize - ipcHeaderSize < len then some ⟨buf, [], 0⟩
    else sendFrame ieee call len buf sends

def cmdResult : UInt32 := 1

def cmdResultFormat : List UInt8 := ascii ['%', 'u', 'l']

def sendResult (buf : List UInt8) (res : UInt32) (sends : List (Option Nat)) :
    Option (IpcOutcome × Bool) :=
  if res = 0 then some (⟨buf, [], 0⟩, false)
  else do
    let outcome ← vsendCmd ieee buf ⟨cmdResult, cmdResultFormat, [.integer res.toNat]⟩ sends
    some (outcome, ipcResultSize == outcome.returned)

def initialIpcBuffer : List UInt8 := List.replicate ipcBufferSize 0

/-- The static buffer behind a number of calls, to whichever peers. -/
def afterCalls (history : List (IpcCall Double × List (Option Nat))) :
    Option (List UInt8) :=
  history.foldlM (fun buf (call, sends) =>
    (vsendCmd ieee buf call sends).map IpcOutcome.buf) initialIpcBuffer

end Send

section Receive

/-- What `recv_cmd` returns, the bytes in the buffer, and the results of `recvfrom`
that are left.  The count is the number of the bytes. -/
structure Received where
  done : Bool
  bytes : List UInt8
  rest : List (Option (List UInt8))
  deriving DecidableEq

/-- Both loops of `recv_cmd`.  The first one ends with the header, and the second
one with the packet. -/
def recvLoop (bufLen size : Nat) :
    List (Option (List UInt8)) → List UInt8 → Option Received
  | [], bytes =>
    if size ≤ bytes.length then some ⟨true, bytes, []⟩ else none
  | result :: results, bytes =>
    if size ≤ bytes.length then some ⟨true, bytes, result :: results⟩
    else
      match result with
      | none => some ⟨false, bytes, results⟩
      | some chunk =>
        -- `recvfrom` asks for the rest of the buffer and cannot return more.
        if bufLen - bytes.length < chunk.length then none
        else if chunk = [] then some ⟨false, bytes, results⟩
        else recvLoop bufLen size results (bytes ++ chunk)

def recvCmd (bufLen : Nat) (results : List (Option (List UInt8))) :
    Option Received :=
  if bufLen = 0 then some ⟨false, [], results⟩
  else do
    let header ← recvLoop bufLen ipcHeaderSize results []
    if header.done then
      let packetSize := ipcdataGetDatalen header.bytes + ipcHeaderSize
      if bufLen < packetSize then some ⟨false, header.bytes, header.rest⟩
      else recvLoop bufLen packetSize header.rest header.bytes
    else some header

/-- What a number of calls put into the buffer, if all of them return true, and the
results that are left. -/
def recvCmds (bufLen : Nat) :
    Nat → List (Option (List UInt8)) → Option (List (List UInt8) × List (Option (List UInt8)))
  | 0, results => some ([], results)
  | calls + 1, results => do
      let received ← recvCmd bufLen results
      if received.done then
        let (frames, rest) ← recvCmds bufLen calls received.rest
        some (received.bytes :: frames, rest)
      else none

end Receive

end MercuryFix
