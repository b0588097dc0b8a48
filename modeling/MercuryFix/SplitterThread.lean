import MercuryFix.ByteBlocks
import MercuryFix.FixFields
import MercuryFix.FixMessageFields
import MercuryFix.MealyMachines

/-!
# The splitter thread

`splitter_thread_func` cuts the received byte stream into messages.  It reads
foxtrot entries one after the other and keeps its parse state across them.
The model follows the `switch` of the source case by case, with the copying of
a body done by one `memcpy` per entry.  Calls that leave the thread (the
commits to delta and echo, the database, the pusher) are recorded as effects
in their order.

An access outside a memory block ends the modelled run with a fault.  Integers
are natural numbers, reduced where the source's type truncates.  The thread's
`errno` is kept as the flag that says whether it holds `ERANGE`.
-/

namespace MercuryFix

open DecimalText ByteBlock

inductive ParseState
  | findingBeginString
  | findingBodyLength
  | copyingBody
  deriving DecidableEq

/-- The accesses whose bounds the source does not check itself. -/
inductive Fault
  | deltaWrite
  | checksumRead
  | sequenceNumberScan
  | msgtypeRead
  | msgtypeScan
  | resendRequestScan
  deriving DecidableEq

/-- `struct delta_t`; `data` holds the bytes of the block the pointer refers
to, none for NULL. -/
structure DeltaEntry where
  size : Nat
  msgtypeOffset : Nat
  data : List UInt8
  deriving DecidableEq

/-- A delta entry as a publisher acquires it: cleared by the initialisation of
the ring or by the `pop` that took the previous message. -/
def DeltaEntry.vacant : DeltaEntry := ⟨0, 0, []⟩

/-- What the splitter does to its surroundings. -/
inductive Effect
  | storeRecvMsg (seqnum len : Nat) (msg : List UInt8)
  | deltaCommit (size msgtypeOffset : Nat) (data : List UInt8)
  | echoCommit (size msgtypeOffset : Nat) (data : List UInt8)
  | sendResendRequestMessage (first : Nat)
  | sendSessionLevelRejectMessage (rejected : Nat) (reason : String)
  | resend (start stop : Nat)
  deriving DecidableEq

/-- What the splitter is started with.  `beyond` is the memory behind the
terminating NUL of `begin_string`, which the search can read. -/
structure SplitterArgs where
  soh : UInt8
  beginString : List UInt8
  beyond : Nat → UInt8
  dataTags : Nat → Bool
  mallocSucceeds : Nat → Bool
  terminated : (0 : UInt8) ∉ beginString
  fits : beginString.length < 32

/-- The variables of `splitter_thread_func` that live across entries. -/
structure Splitter where
  state : ParseState
  l : Nat
  lengthStr : List UInt8
  bytesLeftToCopy : Nat
  offset : Nat
  expected : Nat
  erange : Bool
  delta : DeltaEntry
  mallocs : Nat
  fault : Option Fault
  deriving DecidableEq

/-- The splitter at the top of its loop, before any data, with the last
received sequence number from the database. -/
def Splitter.initial (lastReceived : UInt64) : Splitter where
  state := .findingBeginString
  l := 0
  lengthStr := List.replicate 32 0
  bytesLeftToCopy := 0
  offset := 0
  expected := lastReceived.toNat
  erange := false
  delta := .vacant
  mallocs := 0
  fault := none

def SplitterArgs.beginChar (args : SplitterArgs) (l : Nat) : UInt8 :=
  match args.beginString[l]? with
  | some character => character
  | none =>
    if l = args.beginString.length then 0
    else args.beyond (l - args.beginString.length - 1)

/-- `atoll` on a string of digits: the number, saturated, and whether `errno`
becomes `ERANGE`. -/
def atoll (text : List UInt8) : Nat × Bool :=
  (min (value text) (2 ^ 63 - 1), decide (2 ^ 63 - 1 < value text))

/-- What `get_sequence_number` returns and leaves behind. -/
structure SequenceNumberRead where
  seqnum : Nat
  erange : Bool
  msg : List UInt8
  deriving DecidableEq

/-- `get_sequence_number` on the `len` bytes of a message at the start of the
block `msg`; the byte behind the digits is overwritten by the delimiter. -/
def getSequenceNumber (soh : UInt8) (len : Nat) (msg : List UInt8) :
    Option SequenceNumberRead :=
  match memmem (soh :: ascii ['3', '4', '=']) (msg.take len) with
  | none => some ⟨0, false, msg⟩
  | some position =>
    let start := position + 4
    let digits := (msg.drop start).takeWhile fun byte => soh != byte && isDigit byte
    let stop := start + digits.length
    if stop < msg.length then
      let retv := min (value digits) (2 ^ 64 - 1)
      some
        { seqnum := if retv = 2 ^ 64 - 1 then 0 else retv
          erange := decide (2 ^ 64 - 1 < value digits)
          msg := msg.set stop soh }
    else none

def echoMaxDataSize : Nat := 512 - 2 * 4

def foxtrotMaxDataSize : Nat := 1024 * 4 - 4

/-- The state of the field loop on a resend request. -/
structure ResendRequestFields where
  tag : Int
  beginSeqnum : Option Nat
  endSeqnum : Option Nat
  erange : Bool

def strtoumax (str : List UInt8) : Option (Nat × Bool) :=
  (numberText str).map fun (negated, digits) =>
    if 2 ^ 64 - 1 < value digits then (2 ^ 64 - 1, true)
    else (if negated then (2 ^ 64 - value digits) % 2 ^ 64 else value digits, false)

def strtoimax (str : List UInt8) : Option (Nat × Bool) :=
  (numberText str).map fun (negated, digits) =>
    if negated then
      if 2 ^ 63 < value digits then (2 ^ 63, true)
      else ((2 ^ 64 - value digits) % 2 ^ 64, false)
    else if 2 ^ 63 - 1 < value digits then (2 ^ 63 - 1, true)
    else (value digits, false)

/-- The field loop on a resend request.  Every field takes at least two bytes,
so that the length of the message bounds the number of rounds. -/
def resendRequestLoop :
    Nat → FixMessageRX → ResendRequestFields → Option ResendRequestFields
  | 0, _, _ => none
  | rounds + 1, rx, fields => do
      let field ← rx.nextField
      if field.tag ≤ 0 then
        return { fields with tag := field.tag }
      let fields := { fields with tag := field.tag }
      let fields ←
        if field.tag = 7 then
          (strtoumax field.value).map fun (number, overflow) =>
            { fields with
              beginSeqnum := some number
              erange := fields.erange || overflow }
        else some fields
      let fields ←
        if field.tag = 16 then
          (strtoimax field.value).map fun (number, overflow) =>
            { fields with
              endSeqnum := some number
              erange := fields.erange || overflow }
        else some fields
      if fields.beginSeqnum.isSome && fields.endSeqnum.isSome then
        return fields
      resendRequestLoop rounds field.rx fields

/-- The branch for a resend request outside the session messages.  The message
is freed with the `FIXMessageRX` it was imprinted on. -/
def resendRequestReceived (args : SplitterArgs) (received : Nat)
    (s : Splitter) : Splitter × List Effect :=
  let rx : FixMessageRX := ⟨args.soh, args.dataTags, none, none⟩
  let read := (rx.imprint s.delta.msgtypeOffset s.delta.data).bind fun rx =>
    resendRequestLoop (s.delta.data.length + 1) rx ⟨0, none, none, false⟩
  match read with
  | none => ({ s with fault := some .resendRequestScan }, [])
  | some fields =>
    let s :=
      { s with
        erange := s.erange || fields.erange
        delta := { s.delta with data := [] } }
    if fields.tag < 0 then
      (s, [.sendSessionLevelRejectMessage received
        "invalid ResendRequest message recieved containing negative tag"])
    else
      match fields.beginSeqnum, fields.endSeqnum with
      | some start, some stop => (s, [.resend start stop])
      | _, _ =>
        (s, [.sendSessionLevelRejectMessage received
          "invalid resend request - missing one or both of tag 7 or tag 16"])

/-- The handling of a message that carries the expected sequence number. -/
def dispatchMessage (args : SplitterArgs) (received : Nat) (s : Splitter) :
    Splitter × List Effect :=
  let msgType := args.beginString.length + (cString s.lengthStr).length + 4
  match s.delta.data[msgType]? with
  | none => ({ s with fault := some .msgtypeRead }, [])
  | some first =>
    if charEqByte args.soh first then
      (s, [.sendSessionLevelRejectMessage received "malformed message type value"])
    else
      match getFixMsgtype args.soh (s.delta.data.drop msgType) with
      | none => ({ s with fault := some .msgtypeScan }, [])
      | some fixMsgType =>
        let message := s.delta.data.take s.delta.size
        let offset := msgType % 2 ^ 32
        if !isSessionMessage fixMsgType then
          if fixMsgType ≠ .fmtResendRequest then
            ({ s with delta := .vacant },
              [.storeRecvMsg received s.delta.size message,
                .deltaCommit s.delta.size offset message])
          else resendRequestReceived args received s
        else if echoMaxDataSize < s.delta.size then
          ({ s with expected := (s.expected + 2 ^ 64 - 1) % 2 ^ 64 }, [])
        else
          (s, [.storeRecvMsg received s.delta.size message,
            .echoCommit s.delta.size offset message])

def uint32Sub (left right : Nat) : Nat :=
  if right ≤ left then left - right else left + 2 ^ 32 - right

/-- The branch of `CopyingBody` taken once all bytes of a message are there,
up to the label `go_on`. -/
def messageComplete (args : SplitterArgs) (s : Splitter) :
    Splitter × List Effect :=
  let size := s.delta.size
  let summed := uint32Sub size 7
  if s.delta.data.length < summed ∨ s.delta.data.length < size then
    ({ s with fault := some .checksumRead }, [])
  else if (s.delta.data.drop (size - 4)).take 3 ≠
      sprintf03u (getFIXChecksum (s.delta.data.take summed)) then
    (s, [])
  else
    match getSequenceNumber args.soh size s.delta.data with
    | none => ({ s with fault := some .sequenceNumberScan }, [])
    | some read =>
      let s :=
        { s with
          erange := s.erange || read.erange
          delta := { s.delta with data := read.msg } }
      if read.seqnum ≠ (s.expected + 1) % 2 ^ 64 then
        (s, [.sendResendRequestMessage s.expected])
      else
        dispatchMessage args read.seqnum { s with expected := (s.expected + 1) % 2 ^ 64 }

/-- `case FindingBeginString`; `true` when it falls through to the next
case. -/
def findingBeginString (args : SplitterArgs) (byte : UInt8) (s : Splitter) :
    Splitter × Bool :=
  if charEqByte (args.beginChar s.l) byte then
    ({ s with l := s.l + 1 }, false)
  else if args.beginChar s.l == 0 && isDigit byte then
    ({ s with l := 0, state := .findingBodyLength }, true)
  else if charEqByte (args.beginChar 0) byte then
    ({ s with l := 1 }, false)
  else
    ({ s with l := 0 }, false)

/-- The two `memcpy` calls that put the header in front of the body. -/
def writeHeader (args : SplitterArgs) (text : List UInt8) (s : Splitter) :
    Splitter × Bool :=
  let written := (memcpy s.delta.data 0 args.beginString).bind fun block =>
    memcpy block args.beginString.length text
  match written with
  | none => ({ s with fault := some .deltaWrite }, false)
  | some block =>
    ({ s with
        delta := { s.delta with data := block }
        offset := args.beginString.length + text.length
        state := .copyingBody }, true)

/-- The acceptance of a BodyLength: compute the sizes, make room in the delta
entry and write the header. -/
def acceptBodyLength (args : SplitterArgs) (bodyLength : Nat)
    (text : List UInt8) (s : Splitter) : Splitter × Bool :=
  let bytesLeft := (bodyLength + 1 + 7) % 2 ^ 32
  let needed := args.beginString.length + text.length + bytesLeft
  let s := { s with bytesLeftToCopy := bytesLeft }
  if s.delta.size < needed then
    let size := needed % 2 ^ 32
    if args.mallocSucceeds s.mallocs then
      writeHeader args text
        { s with
          mallocs := s.mallocs + 1
          delta := { s.delta with size := size, data := List.replicate size 0 } }
    else
      ({ s with
          mallocs := s.mallocs + 1
          delta := { s.delta with size := size, data := [] }
          state := .findingBeginString }, false)
  else
    writeHeader args text { s with delta := { s.delta with size := needed % 2 ^ 32 } }

/-- `case FindingBodyLength`; `true` when it falls through to the next
case. -/
def findingBodyLength (args : SplitterArgs) (byte : UInt8) (s : Splitter) :
    Splitter × Bool :=
  if s.l = 21 then
    ({ s with l := 0, state := .findingBeginString }, false)
  else
    let s := { s with lengthStr := s.lengthStr.set s.l byte }
    if !isDigit byte && args.soh != byte then
      ({ s with state := .findingBeginString, l := 0 }, false)
    else if args.soh != byte then
      ({ s with l := s.l + 1 }, false)
    else
      let s := { s with lengthStr := s.lengthStr.set s.l 0, l := 0 }
      let text := cString s.lengthStr
      let number := atoll text
      let bodyLength := number.1 % 2 ^ 32
      let s := { s with erange := s.erange || number.2 }
      if bodyLength = 0 || s.erange then
        ({ s with state := .findingBeginString }, false)
      else acceptBodyLength args bodyLength text s

/-- `case CopyingBody`, with the value of `k` at the end of the loop body. -/
def copyingBody (args : SplitterArgs) (content : List UInt8) (k : Nat)
    (s : Splitter) : Splitter × Nat × List Effect :=
  if s.bytesLeftToCopy ≤ content.length - k then
    match memcpy s.delta.data s.offset ((content.drop k).take s.bytesLeftToCopy) with
    | none => ({ s with fault := some .deltaWrite }, k, [])
    | some block =>
      let done := messageComplete args { s with delta := { s.delta with data := block } }
      ({ done.1 with state := .findingBeginString },
        (k + (s.bytesLeftToCopy + 2 ^ 32 - 1)) % 2 ^ 32, done.2)
  else
    match memcpy s.delta.data s.offset (content.drop k) with
    | none => ({ s with fault := some .deltaWrite }, k, [])
    | some block =>
      ({ s with
          delta := { s.delta with data := block }
          bytesLeftToCopy := s.bytesLeftToCopy - (content.length - k)
          offset := s.offset + (content.length - k) },
        content.length, [])

/-- The `switch` entered at `FindingBodyLength`. -/
def fromBodyLength (args : SplitterArgs) (content : List UInt8) (k : Nat)
    (s : Splitter) : Splitter × Nat × List Effect :=
  let header := findingBodyLength args (content.getD k 0) s
  if header.2 then copyingBody args content k header.1
  else (header.1, k, [])

/-- One pass through the `switch`. -/
def switchPass (args : SplitterArgs) (content : List UInt8) (k : Nat)
    (s : Splitter) : Splitter × Nat × List Effect :=
  match s.state with
  | .findingBeginString =>
    let header := findingBeginString args (content.getD k 0) s
    if header.2 then fromBodyLength args content k header.1
    else (header.1, k, [])
  | .findingBodyLength => fromBodyLength args content k s
  | .copyingBody => copyingBody args content k s

/-- The loop over the bytes of one entry, with a bound on its rounds. -/
def entryLoop (args : SplitterArgs) (content : List UInt8) :
    Nat → Nat → Splitter → Splitter × List Effect
  | 0, _, s => (s, [])
  | rounds + 1, k, s =>
    if k < content.length ∧ s.fault = none then
      let pass := switchPass args content k s
      let rest := entryLoop args content rounds ((pass.2.1 + 1) % 2 ^ 32) pass.1
      (rest.1, pass.2.2 ++ rest.2)
    else (s, [])

/-- The data of one foxtrot entry. -/
structure FoxtrotEntry where
  data : List UInt8
  fits : data.length ≤ foxtrotMaxDataSize

/-- Handle one foxtrot entry.  A round that does not advance `k` is followed by
one that does, so that twice the length bounds the number of rounds. -/
def splitEntry (args : SplitterArgs) (s : Splitter) (entry : FoxtrotEntry) :
    Splitter × List Effect :=
  entryLoop args entry.data (2 * entry.data.length + 1) 0 s

def splitEntries (args : SplitterArgs) (s : Splitter)
    (entries : List FoxtrotEntry) : Splitter × List Effect :=
  MealyMachine.run (splitEntry args) s entries

end MercuryFix
