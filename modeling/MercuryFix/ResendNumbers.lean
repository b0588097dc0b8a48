import MercuryFix.ResendLoop

/-!
# The numbers of resent messages

Every message that `resend` emits advances its counter twice: once when it is
completed and once at the end of the loop.  The rows are resent under their own
numbers only if these go up in steps of two.
-/

namespace MercuryFix

open DecimalText ByteBlock TransitionSystem

open Disruptor hiding Ring step

section Romeo

/-- Nothing is left on romeo after `count` messages. -/
structure Quiet (romeo : Disruptor.Ring (List UInt8)) (count : Nat) : Prop where
  publisher : romeo.publishers 0 = .idle
  written : romeo.writeCursor = count
  read : romeo.maxReadCursor = count
  cursor : romeo.entryProcessorCursors 0 = some (protectedFrom count)
  reader : ∃ reader, romeo.processors 0 = .reading reader ∧
    reader.spot = 0 ∧ reader.start = 1 ∧ reader.next = count + 1

theorem Quiet.registered : Quiet romeoRegistered 0 where
  publisher := rfl
  written := rfl
  read := rfl
  cursor := rfl
  reader := ⟨.begin 0 1, rfl, rfl, rfl, rfl⟩

variable {romeo : Disruptor.Ring (List UInt8)} {count : Nat}

def acquiredRomeo (romeo : Disruptor.Ring (List UInt8)) (count : Nat) :
    Disruptor.Ring (List UInt8) :=
  { romeo with
    writeCursor := count + 1
    slowestEntryProcessor := protectedFrom count }.setPublisher 0 (.holding (count + 1))

theorem Quiet.acquire (quiet : Quiet romeo count) : run (Disruptor.step romeoConfig) romeo
        [.publish 0 .nextEntryBlocking, .publish 0 .scan, .publish 0 .scan] =
      some (acquiredRomeo romeo count) := by
  have room : mayWrite romeoConfig (count + 1) (protectedFrom count) = true := by
    rw [mayWrite, decide_eq_true_eq]
    have size : romeoConfig.reducedSize = 127 := rfl
    unfold protectedFrom
    omega
  have spots : romeoConfig.spots = 1 := rfl
  simp [run, Disruptor.step, publisherStep, quiet.publisher, quiet.written, quiet.cursor, spots,
    minCursor, scanned, room, acquiredRomeo, Ring.setPublisher]

def committedRomeo (romeo : Disruptor.Ring (List UInt8)) (count : Nat)
    (filled : List UInt8) : Disruptor.Ring (List UInt8) :=
  { romeo with
    writeCursor := count + 1
    slowestEntryProcessor := protectedFrom count
    maxReadCursor := count + 1
    buffer := Function.update romeo.buffer (romeoConfig.index (count + 1)) filled
    committed := Function.update romeo.committed (count + 1) filled
    contents := Function.update romeo.contents (count + 1) filled }

theorem Quiet.commit (quiet : Quiet romeo count) (filled : List UInt8) :
    run (Disruptor.step romeoConfig) (acquiredRomeo romeo count)
        [.publish 0 (.write filled), .publish 0 .await, .publish 0 .commit] =
      some (committedRomeo romeo count filled) := by
  have idle : Function.update romeo.publishers 0 .idle = romeo.publishers := by
    rw [← quiet.publisher, Function.update_eq_self]
  simp [run, Disruptor.step, publisherStep, acquiredRomeo, committedRomeo,
    Ring.setPublisher, Ring.setEntry, quiet.read, idle]

def passedReader (reader : Reader (List UInt8)) (filled : List UInt8) :
    Reader (List UInt8) :=
  { reader with
    next := reader.next + 1
    limit := reader.next
    sighted := false
    history := reader.history ++ [(reader.next, filled)] }

def passedRomeo (romeo : Disruptor.Ring (List UInt8)) (count : Nat)
    (reader : Reader (List UInt8)) (filled completed : List UInt8) :
    Disruptor.Ring (List UInt8) :=
  { (committedRomeo romeo count filled).setProcessor 0
      (.reading (passedReader reader filled)) with
    entryProcessorCursors := Function.update romeo.entryProcessorCursors 0 (some (count + 1))
    buffer := Function.update romeo.buffer (romeoConfig.index (count + 1)) completed
    contents := Function.update romeo.contents (count + 1) completed }

theorem Quiet.passed (quiet : Quiet romeo count)
    {reader : Reader (List UInt8)} (spot : reader.spot = 0)
    (start : reader.start = 1) (next : reader.next = count + 1)
    (filled completed : List UInt8) :
    Quiet (passedRomeo romeo count reader filled completed) (count + 1) where
  publisher := quiet.publisher
  written := rfl
  read := rfl
  cursor := by simp [passedRomeo, protectedFrom]
  reader := ⟨passedReader reader filled, by simp [passedRomeo], spot, start,
    by simp [passedReader, next]⟩

theorem Quiet.passes (quiet : Quiet romeo count) (args : PusherArgs) (filled : List UInt8) :
    ∃ next : List UInt8 → Disruptor.Ring (List UInt8),
      (∀ completed, Quiet (next completed) (count + 1)) ∧
      ∀ state : Resending, state.romeo = committedRomeo romeo count filled →
        pushRomeo args state = (completeFIXMessage args state.seqnum filled
          (getLengthOfPartialMsg filled)).map fun completed =>
            { state with
              romeo := next completed.buffer
              seqnum := completed.msgSeqNumber
              stored := state.stored ++ [completed.stored]
              written := state.written ++ [completed.bytes] } := by
  obtain ⟨reader, reading, spot, start, next⟩ := quiet.reader
  refine ⟨passedRomeo romeo count reader filled,
    quiet.passed spot start next filled, fun state published => ?_⟩
  have sighted : run (Disruptor.step romeoConfig) state.romeo
      [.process 0 .look, .process 0 .limit] =
      some ((committedRomeo romeo count filled).setProcessor 0
        (.reading { reader with sighted := false, limit := count + 1 })) := by
    simp [run, Disruptor.step, processorStep, readerStep, published, reading,
      committedRomeo, next, Ring.setProcessor]
  have read (completed : List UInt8) : run (Disruptor.step romeoConfig)
      ((committedRomeo romeo count filled).setProcessor 0
        (.reading { reader with sighted := false, limit := count + 1 }))
      [.process 0 .read, .process 0 (.overwrite completed)] =
      some { passedRomeo romeo count reader filled completed with
        entryProcessorCursors := romeo.entryProcessorCursors } := by
    simp [run, Disruptor.step, processorStep, readerStep, committedRomeo, next,
      start, Ring.setProcessor, Ring.setEntry, passedRomeo, passedReader]
  have released (completed : List UInt8) : run (Disruptor.step romeoConfig)
      { passedRomeo romeo count reader filled completed with
        entryProcessorCursors := romeo.entryProcessorCursors }
      [.process 0 (.release (count + 1))] =
      some (passedRomeo romeo count reader filled completed) := by
    simp [run, Disruptor.step, processorStep, readerStep, passedRomeo, passedReader, committedRomeo,
      spot, next, quiet.cursor, protectedFrom, Ring.setCursor, Ring.setProcessor]
  have single : count + 1 + 1 - reader.next = 0 + 1 := by omega
  have held : ((committedRomeo romeo count filled).setProcessor 0
      (.reading { reader with sighted := false, limit := count + 1 })).buffer
        (romeoConfig.index reader.next) = filled := by
    simp [committedRomeo, next]
  cases completes : completeFIXMessage args state.seqnum filled (getLengthOfPartialMsg filled) with
  | none =>
    simp only [pushRomeo, sighted, Option.bind_eq_bind, Option.bind_some,
      Ring.setProcessor_processors, Function.update_self, single,
      completeRomeo, held, completes, Option.bind_none, Option.map_none]
  | some completed =>
    simp only [pushRomeo, sighted, Option.bind_eq_bind, Option.bind_some,
      Ring.setProcessor_processors, Function.update_self, single,
      completeRomeo, held, completes, read, released, Option.map_some]

theorem Quiet.emits {args : PusherArgs} {state : Resending}
    (quiet : Quiet state.romeo count) (startFits : args.fixStart.length < 32)
    (input : RowInput) (exposed : Exposed)
    (short : (cString exposed.msgType).length < msgTypeMaxLength)
    (small : exposed.partialMsg.length < 2 ^ 32) (error : Bool) :
    ∃ pushed next stored, pushToRomeo error input exposed state.romeo = some (pushed, error) ∧
      Quiet next (count + 1) ∧
      ∀ tx len, pushRomeo args { state with tx := tx, exposed := len, romeo := pushed } = some
        { state with
          tx := tx
          exposed := len
          romeo := next
          seqnum := (state.seqnum + 1) % 2 ^ 64
          stored := state.stored ++ [stored]
          written := state.written ++ [completedText args
            (cString exposed.msgType) exposed.partialMsg ((state.seqnum + 1) % 2 ^ 64)] } := by
  generalize requestEq : romeoRequest input.pushClock exposed = request
  have typeEq : request.msgType = cString exposed.msgType := by
    rw [← requestEq, romeoRequest]
  have dataEq : request.data = exposed.partialMsg := by
    rw [← requestEq, romeoRequest]
  generalize blockEq : (if (state.romeo.buffer (romeoConfig.index (count + 1))).length <
        request.blockSize then input.malloced request.blockSize
      else state.romeo.buffer (romeoConfig.index (count + 1))) = block
  have room : partialMsgOffset + request.data.length + fixBufferReservedTail ≤ block.length := by
    have size : request.blockSize = partialMsgOffset + request.data.length +
        fixBufferReservedTail := by
      simp only [PushRequest.blockSize, partialMsgOffset]
      omega
    rw [← blockEq, ← size]
    split
    · rw [input.mallocedLength]
    · omega
  obtain ⟨filled, fills, prepared, -⟩ := fillEntry_prepared (typeEq ▸ short) room
  obtain ⟨completed, completes, counted, -, text, -⟩ :=
    prepared.completes startFits (typeEq ▸ short) (dataEq ▸ small)
      (rfl : (state.seqnum + 1) % 2 ^ 64 = (state.seqnum + 1) % 2 ^ 64)
  have pushes : pushToRomeo error input exposed state.romeo =
      some (committedRomeo state.romeo count filled, error) := by
    have accepted : ¬ msgTypeMaxLength < request.msgType.length + 1 := by
      rw [typeEq]
      omega
    have holding : (acquiredRomeo state.romeo count).publishers 0 = .holding (count + 1) := by
      simp [acquiredRomeo]
    have memory : (acquiredRomeo state.romeo count).buffer = state.romeo.buffer := rfl
    simp only [pushToRomeo, requestEq, accepted, ↓reduceIte, quiet.acquire, Option.bind_eq_bind,
      Option.bind_some, holding, memory, blockEq, fills, quiet.commit]
  obtain ⟨next, quietNext, passes⟩ := quiet.passes args filled
  refine ⟨_, next completed.buffer, completed.stored, pushes,
    quietNext completed.buffer, fun tx len => ?_⟩
  have passed := passes { state with
    tx := tx
    exposed := len
    romeo := committedRomeo state.romeo count filled } rfl
  rw [passed, completes, Option.map_some, counted, text, typeEq, dataEq]

theorem Quiet.pushToRomeo_cases {error code : Bool} {input : RowInput}
    {exposed : Exposed} {pushed : Disruptor.Ring (List UInt8)}
    (quiet : Quiet romeo count)
    (pushes : pushToRomeo error input exposed romeo = some (pushed, code)) :
    (pushed = romeo ∧ code = true) ∨
      ∃ filled, pushed = committedRomeo romeo count filled ∧ code = error := by
  have holding : (acquiredRomeo romeo count).publishers 0 = .holding (count + 1) := by
    simp [acquiredRomeo]
  simp only [pushToRomeo] at pushes
  split at pushes
  · cases pushes
    exact .inl ⟨rfl, rfl⟩
  · simp only [quiet.acquire, Option.bind_eq_bind, Option.bind_some, holding,
      quiet.commit, Option.bind_eq_some_iff] at pushes
    obtain ⟨filled, -, same⟩ := pushes
    cases same
    exact .inr ⟨filled, rfl, rfl⟩

end Romeo

section Composing

def gapFillText (soh : UInt8) (version : FixVersion) (clock : ClockReading)
    (newSeqNo : Nat) : List UInt8 :=
  [soh] ++ fieldText soh 123 (ascii ['Y']) ++
    fieldText soh 36 (render newSeqNo) ++
    fieldText soh 52 (sendingTime version clock)

theorem length_gapFillText (soh : UInt8) (version : FixVersion)
    (clock : ClockReading) (newSeqNo : Nat) :
    (gapFillText soh version clock newSeqNo).length =
      15 + stampLength version + (render newSeqNo).length := by
  have flagTag : (render 123).length = 3 := by decide
  have numberTag : (render 36).length = 2 := by decide
  have stampTag : (render 52).length = 2 := by decide
  have flag : (ascii ['Y']).length = 1 := rfl
  simp only [gapFillText, List.length_append, List.length_singleton,
    length_fieldText, length_sendingTime]
  omega

theorem length_gapFillText_le (soh : UInt8) (version : FixVersion)
    (clock : ClockReading) {newSeqNo : Nat} (fits : newSeqNo < 2 ^ 64) :
    (gapFillText soh version clock newSeqNo).length ≤ 56 := by
  have digits := length_render_le_twenty fits
  have stamp := stampLength_le version
  rw [length_gapFillText]
  omega

theorem composeRow_gapFill (version : FixVersion) (input : RowInput)
    {pmsg : StoredMessage} (empty : pmsg.length = 0) (seqnum : Nat) (tx : FixMessageTX) :
    ∃ next, composeRow version input seqnum pmsg tx = some (next, true) ∧
      Composing next (gapFillText tx.soh version input.stampClock ((seqnum + 1) % 2 ^ 64)) ∧
      next.soh = tx.soh ∧ next.msgType = ascii ['4'] ∧
      next.sendingTimeAppended = true ∧
      next.buf.length = initialTxBufferSize := by
  have size : initialTxBufferSize = 2048 := rfl
  have digits := length_render_le_twenty (Nat.mod_lt (seqnum + 1) (by omega : 2 ^ 64 > 0))
  have stamp := length_sendingTime version input.stampClock
  have stampMost := stampLength_le version
  have flagLength : (ascii ['Y']).length = 1 := rfl
  -- The row has no message, so the composer starts from a fresh block.
  let cloned : FixMessageTX := { FixMessageTX.init tx.soh with ttl := pmsg.ttl }
  have clones : tx.cloneFrom pmsg = some (cloned, true) := if_pos empty
  let typed : FixMessageTX := { cloned with msgType := ascii ['4'] }
  have types : cloned.appendField 35 (ascii ['4']) = some (typed, true) := rfl
  have blank : Composing typed [tx.soh] := ⟨rfl, rfl, (Composing.init tx.soh).content⟩
  have typedSoh : typed.soh = tx.soh := rfl
  have typedSize : typed.buf.length = 2048 := length_init tx.soh
  have flagWidth := length_fieldText tx.soh 123 (ascii ['Y'])
  have numberWidth := length_fieldText tx.soh 36 (render ((seqnum + 1) % 2 ^ 64))
  have stampWidth := length_fieldText tx.soh 52 (sendingTime version input.stampClock)
  have flagDigits : (render 123).length = 3 := by decide
  have numberDigits : (render 36).length = 2 := by decide
  have stampDigits : (render 52).length = 2 := by decide
  obtain ⟨filling, fills, flagged, fillingSoh, fillingType, fillingSize, -⟩ :=
    blank.append typedSoh 123 (ascii ['Y']) (by decide) (by omega)
      (by rw [List.length_singleton]; omega)
  obtain ⟨numbered, numbers, counted, numberedSoh, numberedType, numberedSize,
    -⟩ := flagged.append fillingSoh 36 (render ((seqnum + 1) % 2 ^ 64)) (by decide) (by omega)
      (by rw [List.length_append, List.length_singleton]; omega)
  obtain ⟨timed, times, stamped, timedSoh, timedType, timedSize, timedTime⟩ :=
    counted.append numberedSoh 52 (sendingTime version input.stampClock) (by decide) (by omega)
      (by simp only [List.length_append, List.length_singleton]; omega)
  refine ⟨timed, ?_, stamped, timedSoh, ?_, ?_, ?_⟩
  · simp only [composeRow, empty, ↓reduceIte, clones, Option.bind_eq_bind,
      Option.bind_some, types, fills, numbers, times]
  · rw [timedType, numberedType, fillingType]
  · rw [timedTime]
    exact Bool.or_true _
  · omega

/-- What `get_sent_msgs` makes of a row. -/
structure Retrieved (pmsg : StoredMessage) : Prop where
  block : pmsg.length ≠ 0 → pmsg.partMsg.length = pmsg.length + 5
  noNul : (0 : UInt8) ∉ pmsg.msgType
  small : pmsg.length < 2 ^ 31

def resentText (soh : UInt8) (version : FixVersion) (clock : ClockReading)
    (pmsg : StoredMessage) (found : Nat) : List UInt8 :=
  (restamped soh version clock pmsg found).partMsg.take (pmsg.length - 3) ++
    fieldText soh 122 (origSendingTime soh version pmsg found)

variable {version : FixVersion} {pmsg : StoredMessage} {tx : FixMessageTX}
  {found : Nat}

theorem Retrieved.length_restamped {soh : UInt8}
    (retrieved : Retrieved pmsg) (filled : pmsg.length ≠ 0)
    (restampable : Restampable soh version pmsg found) (clock : ClockReading) :
    (restamped soh version clock pmsg found).partMsg.length = pmsg.length + 5 := by
  have room := restampable.room
  rw [← retrieved.block filled, restamped]
  apply length_blit
  rw [List.length_append, List.length_singleton, length_sendingTime]
  omega

theorem Retrieved.length_resentText {soh : UInt8}
    (retrieved : Retrieved pmsg) (filled : pmsg.length ≠ 0)
    (restampable : Restampable soh version pmsg found) (clock : ClockReading) :
    (resentText soh version clock pmsg found).length = pmsg.length +
      (origSendingTime soh version pmsg found).length + 2 := by
  have room := restampable.room
  have stamp := le_stampLength version
  have block := retrieved.block filled
  have digits : (render 122).length = 3 := by decide
  rw [resentText, List.length_append, List.length_take, length_fieldText,
    retrieved.length_restamped filled restampable clock]
  omega

theorem composeRow_message (retrieved : Retrieved pmsg) (filled : pmsg.length ≠ 0)
    (restampable : Restampable tx.soh version pmsg found)
    (short : pmsg.msgType.length < maxMsgtypeLength)
    (large : initialTxBufferSize ≤ tx.buf.length) (input : RowInput) (seqnum : Nat) :
    (∃ next, composeRow version input seqnum pmsg tx = some (next, true) ∧
      Composing next (resentText tx.soh version input.stampClock pmsg found) ∧
      next.soh = tx.soh ∧ next.msgType = pmsg.msgType ∧
      next.sendingTimeAppended = true ∧
      next.buf.length = grownSize tx.buf.length pmsg.length) ∨
    (grownSize tx.buf.length pmsg.length <
        (resentText tx.soh version input.stampClock pmsg found).length ∧
      composeRow version input seqnum pmsg tx = none) := by
  have room := restampable.room
  have stamp := le_stampLength version
  have block := retrieved.block filled
  have small := retrieved.small
  have length := retrieved.length_restamped filled restampable input.stampClock
  have origLength : (origSendingTime tx.soh version pmsg found).length ≤ 21 :=
    length_origSendingTime.trans (stampLength_le version)
  generalize origEq : origSendingTime tx.soh version pmsg found = orig at origLength
  generalize restampedEq : restamped tx.soh version input.stampClock pmsg found = message at length
  have messageLength : message.length = pmsg.length := by
    rw [← restampedEq, restamped]
  have messageType : message.msgType = pmsg.msgType := by
    rw [← restampedEq, restamped]
  have textEq : resentText tx.soh version input.stampClock pmsg found =
      message.partMsg.take (message.length - 3) ++ fieldText tx.soh 122 orig := by
    rw [resentText, restampedEq, origEq, messageLength]
  obtain ⟨cloned, clones, composing, soh, -, typed, size, timed⟩ :=
    cloneFrom_composing tx message (by omega) (by omega) (by omega) (messageType ▸ short)
  rw [messageLength] at size
  have still : cloned.sendingTimeAppended = true := by
    rw [timed, ← restampedEq]
    exact Option.isSome_of_eq_some (restampable.still_tagged block)
  have grown : tx.buf.length ≤ grownSize tx.buf.length pmsg.length :=
    (le_grownSize tx.buf.length (by omega)).1
  have initial : initialTxBufferSize = 2048 := rfl
  have unfolded : composeRow version input seqnum pmsg tx =
      (cloned.appendField 122 orig).bind fun appended =>
        some (appended.1, true) := by
    simp only [composeRow, filled, ↓reduceIte, restampable.updates,
      Option.bind_eq_bind, Option.bind_some, restampedEq, clones, origEq]
  rw [textEq, unfolded]
  by_cases fits : (message.partMsg.take (message.length - 3)).length +
      (fieldText tx.soh 122 orig).length ≤ cloned.buf.length
  · obtain ⟨next, appends, composed, nextSoh, nextType, nextSize, nextTimed⟩ :=
      composing.append soh 122 orig (by decide) (by omega) fits
    refine .inl ⟨next, by rw [appends]; rfl, composed, nextSoh,
      nextType.trans (typed.trans messageType), ?_, nextSize.trans size⟩
    rw [nextTimed, still]
    rfl
  · refine .inr ⟨?_, ?_⟩
    · rw [List.length_append]
      omega
    · rw [composing.appendField_overrun (by decide) (by rw [soh]; omega)]
      rfl

end Composing

section Rows

variable {args : PusherArgs} {version : FixVersion} {error : Bool}
  {input : RowInput} {pmsg : StoredMessage} {state : Resending} {count : Nat}

def checksumTag : List UInt8 := ascii ['1', '0', '=']

/-- The type and the partial message that a row stands for, if it stands for
one: a gap fill for an expired row, and else the stored message with a new
SendingTime. -/
def rowMessage (soh : UInt8) (version : FixVersion) (clock : ClockReading)
    (newSeqNo : Nat) (pmsg : StoredMessage) :
    Option (List UInt8 × List UInt8) :=
  if pmsg.length = 0 then
    some (ascii ['4'], gapFillText soh version clock newSeqNo ++ checksumTag)
  else
    (strnstr pmsg.partMsg (sendingTimeTag soh) pmsg.length).bind fun found =>
      if found + (sendingTimeTag soh).length + stampLength version + 1 ≤
            pmsg.partMsg.length ∧
          pmsg.msgType ≠ [] ∧ pmsg.msgType.length < msgTypeMaxLength then
        some (pmsg.msgType, resentText soh version clock pmsg found ++ checksumTag)
      else none

theorem Quiet.sends {tx : FixMessageTX} {text : List UInt8} (quiet : Quiet state.romeo count)
    (startFits : args.fixStart.length < 32)
    (composes : composeRow version input state.seqnum pmsg state.tx = some (tx, true))
    (composing : Composing tx text) (typed : tx.msgType ≠ [])
    (noNul : (0 : UInt8) ∉ tx.msgType)
    (short : tx.msgType.length < msgTypeMaxLength)
    (timed : tx.sendingTimeAppended = true)
    (room : text.length + 3 ≤ tx.buf.length)
    (small : text.length + 3 < 2 ^ 32) :
    ∃ next, resendRow args version false input pmsg state = some (next, true) ∧
      Quiet next.romeo (count + 1) ∧ next.tx.soh = tx.soh ∧
      next.tx.buf.length = tx.buf.length ∧
      next.seqnum = (state.seqnum + 2) % 2 ^ 64 ∧
      next.written = state.written ++ [completedText args tx.msgType
        (text ++ checksumTag) ((state.seqnum + 1) % 2 ^ 64)] := by
  obtain ⟨exposedTx, data, exposes, handed, soh, size⟩ := composing.expose typed timed room
  generalize exposedEq : (⟨tx.ttl, text.length + 3, data, tx.msgType⟩ :
    Exposed) = exposed at exposes
  have partialMsg : exposed.partialMsg = text ++ checksumTag := by
    rw [← exposedEq]
    exact handed
  have msgType : cString exposed.msgType = tx.msgType := by
    rw [← exposedEq]
    exact cString_eq_self noNul
  obtain ⟨pushed, romeo, stored, pushes, quietNext, passes⟩ :=
    quiet.emits startFits input exposed (msgType ▸ short) (by
      rw [partialMsg, List.length_append]
      exact small) false
  have sends : resendRow args version false input pmsg state = some ({ state with
          tx := exposedTx
          exposed := some exposed.len
          romeo := romeo
          seqnum := ((state.seqnum + 1) % 2 ^ 64 + 1) % 2 ^ 64
          stored := state.stored ++ [stored]
          written := state.written ++ [completedText args
            (cString exposed.msgType) exposed.partialMsg
              ((state.seqnum + 1) % 2 ^ 64)] }, true) := by
    simp only [resendRow, composes, Option.bind_eq_bind, Option.bind_some,
      ↓reduceIte, exposes, handedOut, pushes, Bool.false_eq_true, passes]
  refine ⟨_, sends, quietNext, soh, size, ?_, ?_⟩
  · change ((state.seqnum + 1) % 2 ^ 64 + 1) % 2 ^ 64 = _
    omega
  · rw [msgType, partialMsg]

/-- The row is expired, or its message is fit to be resent and fits a composer
of the given size. -/
def RowFits (soh : UInt8) (version : FixVersion) (size : Nat) (pmsg : StoredMessage) : Prop :=
  pmsg.length = 0 ∨ ∃ found, Restampable soh version pmsg found ∧
    pmsg.msgType ≠ [] ∧ pmsg.msgType.length < msgTypeMaxLength ∧
    pmsg.length + (origSendingTime soh version pmsg found).length + 5 ≤ grownSize size pmsg.length

def rowSize (size : Nat) (pmsg : StoredMessage) : Nat :=
  if pmsg.length = 0 then initialTxBufferSize else grownSize size pmsg.length

theorem rowMessage_restampable {soh : UInt8} {clock : ClockReading}
    {newSeqNo found : Nat} (filled : pmsg.length ≠ 0)
    (restampable : Restampable soh version pmsg found) (typed : pmsg.msgType ≠ [])
    (short : pmsg.msgType.length < msgTypeMaxLength) :
    rowMessage soh version clock newSeqNo pmsg = some (pmsg.msgType,
      resentText soh version clock pmsg found ++ checksumTag) := by
  rw [rowMessage, if_neg filled, restampable.tagged, Option.bind_some,
    if_pos ⟨restampable.room, typed, short⟩]

theorem restampable_of_rowMessage {soh : UInt8} {clock : ClockReading}
    {newSeqNo : Nat} {message : List UInt8 × List UInt8} (filled : pmsg.length ≠ 0)
    (stands : rowMessage soh version clock newSeqNo pmsg = some message) :
    ∃ found, Restampable soh version pmsg found ∧ pmsg.msgType ≠ [] ∧
      pmsg.msgType.length < msgTypeMaxLength := by
  rw [rowMessage, if_neg filled, Option.bind_eq_some_iff] at stands
  obtain ⟨found, tagged, rest⟩ := stands
  obtain ⟨⟨room, typed, short⟩, -⟩ := Option.ite_none_right_eq_some.mp rest
  exact ⟨found, ⟨tagged, room⟩, typed, short⟩

theorem Quiet.resendRow_gapFill (quiet : Quiet state.romeo count)
    (startFits : args.fixStart.length < 32)
    (delimiter : state.tx.soh = args.soh) (empty : pmsg.length = 0) (input : RowInput) :
    ∃ next, resendRow args version false input pmsg state = some (next, true) ∧
      Quiet next.romeo (count + 1) ∧ next.tx.soh = args.soh ∧
      next.tx.buf.length = initialTxBufferSize ∧
      next.seqnum = (state.seqnum + 2) % 2 ^ 64 ∧
      next.written = state.written ++ [completedText args (ascii ['4'])
        (gapFillText args.soh version input.stampClock ((state.seqnum + 1) % 2 ^ 64) ++ checksumTag)
        ((state.seqnum + 1) % 2 ^ 64)] := by
  obtain ⟨tx, composes, composing, soh, typed, timed, size⟩ :=
    composeRow_gapFill version input empty state.seqnum state.tx
  have length := length_gapFillText_le state.tx.soh version input.stampClock
    (Nat.mod_lt (state.seqnum + 1) (by omega : 2 ^ 64 > 0))
  have initial : initialTxBufferSize = 2048 := rfl
  obtain ⟨next, sends, rest⟩ := quiet.sends startFits composes composing
    (by rw [typed]; decide) (by rw [typed]; decide) (by rw [typed]; decide)
    timed (by omega) (by omega)
  rw [soh, typed, size, delimiter] at rest
  exact ⟨next, sends, rest⟩

theorem Quiet.resendRow_fits (quiet : Quiet state.romeo count)
    (startFits : args.fixStart.length < 32) (delimiter : state.tx.soh = args.soh)
    (large : initialTxBufferSize ≤ state.tx.buf.length) (retrieved : Retrieved pmsg)
    (fits : RowFits args.soh version state.tx.buf.length pmsg) (input : RowInput) :
    ∃ message next, rowMessage args.soh version input.stampClock
        ((state.seqnum + 1) % 2 ^ 64) pmsg = some message ∧
      resendRow args version false input pmsg state = some (next, true) ∧
      Quiet next.romeo (count + 1) ∧ next.tx.soh = args.soh ∧
      next.tx.buf.length = rowSize state.tx.buf.length pmsg ∧
      next.seqnum = (state.seqnum + 2) % 2 ^ 64 ∧
      next.written = state.written ++ [completedText args message.1 message.2
        ((state.seqnum + 1) % 2 ^ 64)] := by
  by_cases empty : pmsg.length = 0
  · obtain ⟨next, sends, rest⟩ := quiet.resendRow_gapFill startFits delimiter empty input
    refine ⟨_, next, if_pos empty, sends, ?_⟩
    rwa [rowSize, if_pos empty]
  · obtain ⟨found, restampable, typed, short, room⟩ := fits.resolve_left empty
    rw [← delimiter] at restampable
    have small := retrieved.small
    have length := retrieved.length_resentText empty restampable input.stampClock
    have origLength : (origSendingTime state.tx.soh version pmsg found).length ≤
        21 := length_origSendingTime.trans (stampLength_le version)
    rw [← delimiter] at room ⊢
    rcases composeRow_message retrieved empty restampable
      (short.trans (by decide)) large input state.seqnum with
      ⟨tx, composes, composing, soh, sameType, timed, size⟩ | ⟨overrun, -⟩
    · obtain ⟨next, sends, rest⟩ := quiet.sends startFits composes composing
        (sameType ▸ typed) (sameType ▸ retrieved.noNul) (sameType ▸ short) timed
        (by omega) (by omega)
      refine ⟨_, next, rowMessage_restampable empty restampable typed short, sends, ?_⟩
      rw [soh, sameType, size] at rest
      rwa [rowSize, if_neg empty]
    · omega

theorem resendRow_overruns {message : List UInt8 × List UInt8} (delimiter : state.tx.soh = args.soh)
    (large : initialTxBufferSize ≤ state.tx.buf.length) (retrieved : Retrieved pmsg)
    (stands : rowMessage args.soh version input.stampClock
      ((state.seqnum + 1) % 2 ^ 64) pmsg = some message)
    (unfit : ¬ RowFits args.soh version state.tx.buf.length pmsg) :
    resendRow args version error input pmsg state = none := by
  have filled : pmsg.length ≠ 0 := fun empty => unfit (.inl empty)
  obtain ⟨found, restampable, typed, short⟩ := restampable_of_rowMessage filled stands
  have narrow : grownSize state.tx.buf.length pmsg.length <
      pmsg.length + (origSendingTime args.soh version pmsg found).length + 5 :=
    not_le.mp fun room => unfit (.inr ⟨found, restampable, typed, short, room⟩)
  rw [← delimiter] at restampable narrow
  have length := retrieved.length_resentText filled restampable input.stampClock
  rcases composeRow_message retrieved filled restampable
    (short.trans (by decide)) large input state.seqnum with
    ⟨tx, composes, composing, soh, sameType, timed, size⟩ | ⟨-, faults⟩
  · have faults := composing.expose_overrun (sameType ▸ typed) timed (by omega)
    simp only [resendRow, composes, Option.bind_eq_bind, Option.bind_some,
      ↓reduceIte, faults, Option.bind_none]
  · simp only [resendRow, faults, Option.bind_eq_bind, Option.bind_none]

/-- What a turn of the loop can do: it stops while it composes a message, it fails to
push the message, or it has it sent. -/
inductive RowTurn (args : PusherArgs) (version : FixVersion) (error : Bool)
    (input : RowInput) (pmsg : StoredMessage) (state : Resending) :
    Resending → Bool → Prop
  | stops {tx : FixMessageTX}
      (composes : composeRow version input state.seqnum pmsg state.tx = some (tx, false)) :
      RowTurn args version error input pmsg state { state with tx := tx } false
  | fails {composed tx : FixMessageTX} {handed : Option Exposed} {exposed : Exposed}
      {pushed : Disruptor.Ring (List UInt8)}
      (composes : composeRow version input state.seqnum pmsg state.tx = some (composed, true))
      (exposes : composed.expose = some (tx, handed))
      (pushes : pushToRomeo error input exposed state.romeo = some (pushed, true)) :
      RowTurn args version error input pmsg state
        { state with tx := tx, exposed := some exposed.len, romeo := pushed } false
  | sends {composed tx : FixMessageTX} {handed : Option Exposed} {exposed : Exposed}
      {pushed : Disruptor.Ring (List UInt8)} {sent : Resending}
      (composes : composeRow version input state.seqnum pmsg state.tx = some (composed, true))
      (exposes : composed.expose = some (tx, handed))
      (pushes : pushToRomeo error input exposed state.romeo = some (pushed, false))
      (passes : pushRomeo args
        { state with tx := tx, exposed := some exposed.len, romeo := pushed } = some sent) :
      RowTurn args version error input pmsg state
        { sent with seqnum := (sent.seqnum + 1) % 2 ^ 64 } true

theorem rowTurn_of_resendRow {next : Resending} {done : Bool}
    (resends : resendRow args version error input pmsg state = some (next, done)) :
    RowTurn args version error input pmsg state next done := by
  simp only [resendRow, Option.bind_eq_bind, Option.bind_eq_some_iff] at resends
  obtain ⟨⟨composed, code⟩, composes, rest⟩ := resends
  cases code with
  | false =>
    cases rest
    exact .stops composes
  | true =>
    rw [if_pos rfl, Option.bind_eq_some_iff] at rest
    obtain ⟨⟨tx, handed⟩, exposes, rest⟩ := rest
    simp only [Option.bind_eq_some_iff] at rest
    obtain ⟨exposed, -, ⟨pushed, code⟩, pushes, rest⟩ := rest
    cases code with
    | true =>
      cases rest
      exact .fails composes exposes pushes
    | false =>
      rw [if_neg Bool.false_ne_true, Option.bind_eq_some_iff] at rest
      obtain ⟨sent, passes, same⟩ := rest
      cases same
      exact .sends composes exposes pushes passes

theorem resendRows_invariant (Holds : Resending → Prop) {inputs : Nat → RowInput}
    (turn : ∀ input pmsg state next done,
      resendRow args version error input pmsg state = some (next, done) →
      Holds state → Holds next)
    {n : Nat} {messages : List StoredMessage} {final : Resending} {done : Bool}
    (resends : resendRows args version error inputs n messages state = some (final, done))
    (start : Holds state) : Holds final := by
  induction messages generalizing n state with
  | nil =>
    cases resends
    exact start
  | cons pmsg rest induction =>
    simp only [resendRows, Option.bind_eq_bind, Option.bind_eq_some_iff] at resends
    obtain ⟨⟨next, goes⟩, row, rest⟩ := resends
    have held := turn _ _ _ _ _ row start
    split at rest
    · exact induction rest held
    · cases rest
      exact held

theorem pushToRomeo_error {exposed : Exposed} {romeo pushed : Disruptor.Ring (List UInt8)}
    {code : Bool} (pushes : pushToRomeo true input exposed romeo = some (pushed, code)) :
    code = true := by
  simp only [pushToRomeo] at pushes
  split at pushes
  · cases pushes
    rfl
  · simp only [Option.bind_eq_bind, Option.bind_eq_some_iff] at pushes
    obtain ⟨acquired, -, pushes⟩ := pushes
    split at pushes
    · simp only [Option.bind_eq_some_iff] at pushes
      obtain ⟨filled, -, committed, -, pushes⟩ := pushes
      cases pushes
      rfl
    · cases pushes

theorem resendRow_error {next : Resending} {done : Bool}
    (resends : resendRow args version true input pmsg state = some (next, done)) :
    done = false ∧ next.written = state.written := by
  cases rowTurn_of_resendRow resends with
  | stops | fails => exact ⟨rfl, rfl⟩
  | sends _ _ pushes => cases pushToRomeo_error pushes

theorem Quiet.resendRow {next : Resending} {done : Bool} (quiet : Quiet state.romeo count)
    (resends : resendRow args version false input pmsg state =
      some (next, done)) : ∃ later, Quiet next.romeo later := by
  cases rowTurn_of_resendRow resends with
  | stops => exact ⟨count, quiet⟩
  | fails _ _ pushes =>
    obtain ⟨rfl, -⟩ | ⟨filled, -, impossible⟩ := quiet.pushToRomeo_cases pushes
    · exact ⟨count, quiet⟩
    · cases impossible
  | sends _ _ pushes passes =>
    obtain ⟨-, impossible⟩ | ⟨filled, rfl, -⟩ := quiet.pushToRomeo_cases pushes
    · cases impossible
    · obtain ⟨romeo, quietNext, completes⟩ := quiet.passes args filled
      rw [completes _ rfl, Option.map_eq_some_iff] at passes
      obtain ⟨completed, -, rfl⟩ := passes
      exact ⟨count + 1, quietNext completed.buffer⟩

theorem completeRomeo_written {count : Nat} {next : Resending}
    (completes : completeRomeo args count state = some next) :
    state.written <+: next.written := by
  induction count generalizing state with
  | zero =>
    cases completes
    exact List.prefix_rfl
  | succ count induction =>
    rw [completeRomeo] at completes
    split at completes
    · simp only [Option.bind_eq_bind, Option.bind_eq_some_iff] at completes
      obtain ⟨completed, -, romeo, -, rest⟩ := completes
      exact (List.prefix_append _ _).trans (induction rest)
    · cases completes

theorem pushRomeo_written {next : Resending} (pushes : pushRomeo args state = some next) :
    state.written <+: next.written := by
  simp only [pushRomeo, Option.bind_eq_bind, Option.bind_eq_some_iff] at pushes
  obtain ⟨sighted, -, pushes⟩ := pushes
  split at pushes
  · simp only [Option.bind_eq_some_iff] at pushes
    obtain ⟨completed, completes, released, -, same⟩ := pushes
    cases same
    have appended := completeRomeo_written completes
    exact appended
  · cases pushes

theorem resendRow_written {next : Resending} {done : Bool}
    (resends : resendRow args version error input pmsg state =
      some (next, done)) : state.written <+: next.written := by
  cases rowTurn_of_resendRow resends with
  | stops | fails => exact List.prefix_rfl
  | sends _ _ _ passes =>
    have appended := pushRomeo_written passes
    exact appended

theorem resendRows_written {inputs : Nat → RowInput} {n : Nat}
    {messages : List StoredMessage} {final : Resending} {done : Bool}
    (resends : resendRows args version error inputs n messages state =
      some (final, done)) : state.written <+: final.written := by
  refine resendRows_invariant (state.written <+: ·.written) ?_ resends List.prefix_rfl
  intro input pmsg reached next done row written
  exact written.trans (resendRow_written row)

end Rows

section Runs

variable {args : PusherArgs} {version : FixVersion} {error : Bool}
  {inputs : Nat → RowInput} {state : Resending} {count : Nat}

/-- One message for every row from row `n` on, under the number of that row.
`seqnum` is what the counter of `resend` says, for the gap fills. -/
def Emitted (args : PusherArgs) (version : FixVersion) (inputs : Nat → RowInput) :
    Nat → Nat → List (UInt64 × StoredMessage) → List (List UInt8) → Prop
  | _, _, [], written => written = []
  | n, seqnum, (number, pmsg) :: rest, written =>
    ∃ message others,
      rowMessage args.soh version (inputs n).stampClock
        ((seqnum + 1) % 2 ^ 64) pmsg = some message ∧
      written = completedText args message.1 message.2 number.toNat :: others ∧
      Emitted args version inputs (n + 1) ((seqnum + 2) % 2 ^ 64) rest others

/-- Every row fits the composer as the rows before it leave it. -/
def RowsFit (soh : UInt8) (version : FixVersion) :
    Nat → List StoredMessage → Prop
  | _, [] => True
  | size, pmsg :: rest => RowFits soh version size pmsg ∧
      RowsFit soh version (rowSize size pmsg) rest

theorem initial_le_rowSize {size : Nat} {pmsg : StoredMessage}
    (large : initialTxBufferSize ≤ size) (retrieved : Retrieved pmsg) :
    initialTxBufferSize ≤ rowSize size pmsg := by
  have small := retrieved.small
  have power := le_nextPowerOfTwo (by omega : pmsg.length ≤ 2 ^ 63)
  unfold rowSize grownSize
  split
  · exact le_rfl
  · split <;> omega

theorem length_rowMessage {soh : UInt8} {clock : ClockReading}
    {newSeqNo : Nat} {pmsg : StoredMessage}
    {message : List UInt8 × List UInt8} (retrieved : Retrieved pmsg) (fits : newSeqNo < 2 ^ 64)
    (stands : rowMessage soh version clock newSeqNo pmsg = some message) :
    message.2.length + message.1.length < 2 ^ 63 := by
  have tail : checksumTag.length = 3 := rfl
  by_cases empty : pmsg.length = 0
  · rw [rowMessage, if_pos empty] at stands
    cases stands
    have length := length_gapFillText_le soh version clock fits
    simp only [List.length_append, tail]
    have single : (ascii ['4']).length = 1 := rfl
    omega
  · obtain ⟨found, restampable, typed, short⟩ := restampable_of_rowMessage empty stands
    rw [rowMessage_restampable empty restampable typed short] at stands
    cases stands
    have length := retrieved.length_resentText empty restampable clock
    have origLength : (origSendingTime soh version pmsg found).length ≤ 21 :=
      length_origSendingTime.trans (stampLength_le version)
    have small := retrieved.small
    have limit : msgTypeMaxLength = 16 := rfl
    simp only [List.length_append, tail]
    omega

variable {rows : List (UInt64 × StoredMessage)}

theorem Quiet.fit_of_emitted {n : Nat} {final : Resending} {done : Bool}
    {emitted : List (List UInt8)} (quiet : Quiet state.romeo count)
    (startFits : args.fixStart.length < 32) (delimiter : state.tx.soh = args.soh)
    (large : initialTxBufferSize ≤ state.tx.buf.length) (retrieved : ∀ row ∈ rows, Retrieved row.2)
    (resends : resendRows args version false inputs n (rows.map Prod.snd)
      state = some (final, done))
    (written : final.written = state.written ++ emitted)
    (matching : Emitted args version inputs n state.seqnum rows emitted) :
    RowsFit args.soh version state.tx.buf.length (rows.map Prod.snd) ∧
      ∀ k row, rows[k]? = some row → row.1.toNat = (state.seqnum + 1 + 2 * k) % 2 ^ 64 := by
  induction rows generalizing n state count emitted with
  | nil => exact ⟨trivial, fun k row member => by cases member⟩
  | cons row rest induction =>
    obtain ⟨number, pmsg⟩ := row
    obtain ⟨message, others, stands, rfl, restEmitted⟩ := matching
    have here : Retrieved pmsg := retrieved (number, pmsg) List.mem_cons_self
    have numberFits : (state.seqnum + 1) % 2 ^ 64 < 2 ^ 64 := Nat.mod_lt _ (by omega)
    simp only [List.map_cons, resendRows, Option.bind_eq_bind, Option.bind_eq_some_iff] at resends
    obtain ⟨⟨sent, goes⟩, sends, continues⟩ := resends
    have fits : RowFits args.soh version state.tx.buf.length pmsg := by
      by_contra unfit
      rw [resendRow_overruns delimiter large here stands unfit] at sends
      cases sends
    obtain ⟨same, next, standsHere, sendsHere, quietNext, soh, size, seqnum,
      writes⟩ := quiet.resendRow_fits startFits delimiter large here fits (inputs n)
    cases standsHere.symm.trans stands
    cases sendsHere.symm.trans sends
    rw [if_pos rfl] at continues
    obtain ⟨more, appended⟩ := resendRows_written continues
    rw [← appended, writes, List.append_assoc, List.append_cancel_left_eq,
      List.singleton_append, List.cons.injEq] at written
    obtain ⟨sameText, rfl⟩ := written
    have sameNumber := number_of_completedText numberFits number.toNat_lt
      (length_rowMessage here numberFits stands) sameText
    obtain ⟨restFit, restNumbers⟩ := induction quietNext soh (size ▸ initial_le_rowSize large here)
      (fun row member => retrieved row (List.mem_cons_of_mem _ member))
      continues appended.symm (seqnum ▸ restEmitted)
    refine ⟨⟨fits, size ▸ restFit⟩, ?_⟩
    rintro (_ | k) row member
    · cases member
      exact sameNumber.symm
    · rw [restNumbers k row member, seqnum]
      omega

theorem Quiet.emitted_of_fit {n : Nat} (quiet : Quiet state.romeo count)
    (startFits : args.fixStart.length < 32) (delimiter : state.tx.soh = args.soh)
    (large : initialTxBufferSize ≤ state.tx.buf.length) (retrieved : ∀ row ∈ rows, Retrieved row.2)
    (fit : RowsFit args.soh version state.tx.buf.length (rows.map Prod.snd))
    (numbers : ∀ k row, rows[k]? = some row → row.1.toNat = (state.seqnum + 1 + 2 * k) % 2 ^ 64) :
    ∃ final emitted,
      resendRows args version false inputs n (rows.map Prod.snd) state = some (final, true) ∧
      final.written = state.written ++ emitted ∧
      Emitted args version inputs n state.seqnum rows emitted := by
  induction rows generalizing n state count with
  | nil => exact ⟨state, [], rfl, (List.append_nil _).symm, rfl⟩
  | cons row rest induction =>
    obtain ⟨number, pmsg⟩ := row
    obtain ⟨fits, restFit⟩ := fit
    have here : Retrieved pmsg := retrieved (number, pmsg) List.mem_cons_self
    have first : number.toNat = (state.seqnum + 1) % 2 ^ 64 := numbers 0 (number, pmsg) rfl
    obtain ⟨message, next, stands, sends, quietNext, soh, size, seqnum,
      writes⟩ := quiet.resendRow_fits startFits delimiter large here fits (inputs n)
    obtain ⟨final, others, continues, written, restEmitted⟩ :=
      induction quietNext soh (size ▸ initial_le_rowSize large here)
        (fun row member => retrieved row (List.mem_cons_of_mem _ member))
        (size ▸ restFit) (fun k row member => by
          rw [numbers (k + 1) row member, seqnum]
          omega)
    refine ⟨final, completedText args message.1 message.2 number.toNat ::
      others, ?_, ?_, message, others, stands, rfl, seqnum ▸ restEmitted⟩
    · simp only [List.map_cons, resendRows, sends, Option.bind_eq_bind,
        Option.bind_some, ↓reduceIte, continues]
    · rw [written, writes, first, List.append_assoc, List.singleton_append]

theorem emitted_error {n seqnum : Nat} {final : Resending} {done : Bool}
    {emitted : List (List UInt8)}
    (resends : resendRows args version true inputs n (rows.map Prod.snd) state = some (final, done))
    (written : final.written = state.written ++ emitted)
    (matching : Emitted args version inputs n seqnum rows emitted) :
    rows = [] := by
  cases rows with
  | nil => rfl
  | cons row rest =>
    obtain ⟨message, others, -, rfl, -⟩ := matching
    simp only [List.map_cons, resendRows, Option.bind_eq_bind, Option.bind_eq_some_iff] at resends
    obtain ⟨⟨sent, goes⟩, sends, continues⟩ := resends
    obtain ⟨rfl, same⟩ := resendRow_error sends
    cases continues
    rw [same] at written
    exact absurd (List.append_right_eq_self.mp written.symm) (List.cons_ne_nil _ _)

theorem Quiet.resendRows {n : Nat} {messages : List StoredMessage}
    {final : Resending} {done : Bool} (quiet : Quiet state.romeo count)
    (resends : resendRows args version false inputs n messages state =
      some (final, done)) : ∃ later, Quiet final.romeo later := by
  refine resendRows_invariant (∃ later, Quiet ·.romeo later) ?_ resends ⟨count, quiet⟩
  rintro input pmsg reached next done row ⟨before, quietBefore⟩
  exact quietBefore.resendRow row

theorem Quiet.begins {romeo : Disruptor.Ring (List UInt8)}
    (quiet : Quiet romeo count) (soh : UInt8) (start : Nat) :
    Quiet (Resending.begin soh romeo start).romeo count :=
  quiet

/-- Romeo as the earlier calls of `resend` leave it, with the error flag of the
pusher thread, which is never taken back. -/
inductive RomeoReached : Bool → Disruptor.Ring (List UInt8) → Prop
  | registered : RomeoReached false romeoRegistered
  | failed {romeo} (reached : RomeoReached false romeo) :
      RomeoReached true romeo
  | resent {error romeo args version inputs start messages final done}
      (reached : RomeoReached error romeo)
      (resends : resend args version error inputs romeo start messages =
        some (final, done)) : RomeoReached error final.romeo

theorem RomeoReached.quiet {romeo : Disruptor.Ring (List UInt8)}
    (reached : RomeoReached error romeo) (clear : error = false) :
    ∃ count, Quiet romeo count := by
  induction reached with
  | registered => exact ⟨0, Quiet.registered⟩
  | failed reached _ => cases clear
  | resent reached resends induction =>
    obtain ⟨count, quiet⟩ := induction clear
    subst clear
    rw [resend] at resends
    exact (quiet.begins _ _).resendRows resends

end Runs

section Retrieval

variable {inputs : Nat → RowInput}

theorem readRow_retrieved {input : RowInput} {record : SentRecord}
    {pmsg : StoredMessage} (reads : readRow input record = some pmsg)
    (limit : record.partialMsg.length < 2 ^ 31) : Retrieved pmsg := by
  simp only [readRow] at reads
  split at reads
  · cases reads
    exact ⟨fun filled => absurd rfl filled, by simp, by simp⟩
  · split at reads
    · rename_i covered
      cases reads
      refine ⟨fun _ => ?_, noNul_cString _, covered.trans_lt limit⟩
      rw [List.length_append, List.length_take, input.spareLength, Nat.min_eq_left covered]
    · cases reads

theorem readRows_retrieved {n : Nat} {table : List (UInt64 × SentRecord)}
    {rows : List (UInt64 × StoredMessage)}
    (reads : readRows inputs n table = some rows)
    (limit : ∀ row ∈ table, row.2.partialMsg.length < 2 ^ 31) :
    ∀ row ∈ rows, Retrieved row.2 := by
  induction table generalizing n rows with
  | nil =>
    cases reads
    simp
  | cons row table induction =>
    simp only [readRows, Option.bind_eq_bind, Option.bind_eq_some_iff] at reads
    obtain ⟨message, here, others, there, same⟩ := reads
    cases same
    intro row member
    rcases List.mem_cons.mp member with rfl | later
    · exact readRow_retrieved here (limit _ List.mem_cons_self)
    · exact induction there (fun row member => limit row (List.mem_cons_of_mem _ member)) row later

theorem getSentMsgs_retrieved {Path : Type*} {db : MsgDB Path SentRecord}
    {start stop : Nat} {rows : List (UInt64 × StoredMessage)}
    (reads : db.getSentMsgs inputs start stop = some rows)
    (limit : ∀ path, ∀ row ∈ db.files path, row.2.partialMsg.length < 2 ^ 31) :
    ∀ row ∈ rows, Retrieved row.2 := by
  obtain ⟨path, -, reads⟩ := Option.bind_eq_some_iff.mp reads
  apply readRows_retrieved reads
  intro row member
  rw [sentRows, List.mem_insertionSort] at member
  exact limit path row (List.mem_of_mem_filter member)

end Retrieval

/-- `resend` emits one message for every row that `get_sent_msgs` returns, under
the number of that row, exactly if the pusher thread has no error, every row
fits, and the row numbers are `start`, `start + 2`, `start + 4` and so on. -/
theorem resend_keeps_numbers_iff {Path : Type*} (args : PusherArgs)
    (startFits : args.fixStart.length < 32) (version : FixVersion)
    (error : Bool) (romeo : Disruptor.Ring (List UInt8))
    (reached : RomeoReached error romeo) (db : MsgDB Path SentRecord)
    (limit : ∀ path, ∀ row ∈ db.files path, row.2.partialMsg.length < 2 ^ 31)
    (inputs : Nat → RowInput) (start stop : Nat)
    (rows : List (UInt64 × StoredMessage))
    (reads : db.getSentMsgs inputs start stop = some rows) :
    (∃ final done,
      resend args version error inputs romeo start (rows.map Prod.snd) =
        some (final, done) ∧
      Emitted args version inputs 0 ((start + (2 ^ 64 - 1)) % 2 ^ 64) rows
        final.written) ↔
    (rows = [] ∨ error = false) ∧
      RowsFit args.soh version initialTxBufferSize (rows.map Prod.snd) ∧
      ∀ k row, rows[k]? = some row →
        row.1.toNat = (start + 2 * k) % 2 ^ 64 := by
  have retrieved := getSentMsgs_retrieved reads limit
  have size : initialTxBufferSize ≤ (Resending.begin args.soh romeo
      start).tx.buf.length := (length_init args.soh).ge
  constructor
  · rintro ⟨final, done, resends, matching⟩
    cases error with
    | true =>
      have empty := emitted_error resends (List.nil_append _).symm matching
      subst empty
      exact ⟨.inl rfl, trivial, fun k row member => by cases member⟩
    | false =>
      obtain ⟨count, quiet⟩ := reached.quiet rfl
      obtain ⟨fit, numbers⟩ := (quiet.begins args.soh start).fit_of_emitted
        startFits rfl size retrieved resends (List.nil_append _).symm matching
      refine ⟨.inr rfl, (length_init args.soh) ▸ fit, ?_⟩
      intro k row member
      rw [numbers k row member]
      change ((start + (2 ^ 64 - 1)) % 2 ^ 64 + 1 + 2 * k) % 2 ^ 64 = _
      omega
  · rintro ⟨clear, fit, numbers⟩
    rcases clear with rfl | rfl
    · exact ⟨_, true, rfl, rfl⟩
    · obtain ⟨count, quiet⟩ := reached.quiet rfl
      obtain ⟨final, emitted, resends, written, matching⟩ :=
        (quiet.begins args.soh start).emitted_of_fit startFits rfl size
          retrieved ((length_init args.soh).symm ▸ fit)
          (fun k row member => by
            rw [numbers k row member]
            change _ = ((start + (2 ^ 64 - 1)) % 2 ^ 64 + 1 + 2 * k) % 2 ^ 64
            omega)
      refine ⟨final, true, resends, ?_⟩
      rw [written]
      exact matching

section Example

def fix42PusherArgs : PusherArgs where
  fixStart := ascii ['8', '=', 'F', 'I', 'X', '.', '4', '.', '2'] ++ 1 :: ascii ['9', '=']
  soh := 1

def newYear : ClockReading where
  date := ascii ['2', '0', '1', '4', '0', '1', '0', '1', '-', '0', '0', ':',
    '0', '0', ':', '0', '0']
  usec := 0
  dateLength := by decide
  noNul := by decide
  inSecond := by decide

def newYearInput : RowInput where
  readClock := ⟨0, 0⟩
  spare := List.replicate 5 0
  stampClock := newYear
  pushClock := ⟨0, 0⟩
  malloced := fun size => List.replicate size 0
  spareLength := rfl
  mallocedLength := fun _ => List.length_replicate

def timedPartial : List UInt8 :=
  1 :: ascii ['5', '2', '='] ++ sendingTime .fix42 newYear ++ 1 :: checksumTag

def timedRow (number : UInt64) : UInt64 × SentRecord :=
  (number, ⟨number.toNat, timedPartial.length, 100, 0, timedPartial, ascii ['D']⟩)

def timedDatabase (numbers : List UInt64) : MsgDB Unit SentRecord :=
  ⟨some (), some (), fun _ => numbers.map timedRow⟩

def timedResent : List UInt8 :=
  timedPartial.take (timedPartial.length - 3) ++
    fieldText 1 122 (sendingTime .fix42 newYear) ++ checksumTag

def timedMessage : StoredMessage :=
  ⟨timedPartial.length, ascii ['D'], timedPartial ++ List.replicate 5 0, ⟨100, 0⟩⟩

theorem resend_keeps_first_number :
    ∃ final done,
      resend fix42PusherArgs .fix42 false (fun _ => newYearInput)
        romeoRegistered 1 [timedMessage] = some (final, done) ∧
      Emitted fix42PusherArgs .fix42 (fun _ => newYearInput) 0 0
        [(1, timedMessage)] final.written := by
  refine (resend_keeps_numbers_iff fix42PusherArgs (by decide) .fix42 false
    romeoRegistered .registered (timedDatabase [1]) ?_
    (fun _ => newYearInput) 1 0 [(1, timedMessage)] (by decide +kernel)).mpr
      ⟨.inr rfl, ⟨.inr ⟨0, ⟨by decide +kernel, by decide +kernel⟩,
        by decide, by decide, by decide +kernel⟩, trivial⟩, ?_⟩
  · rintro ⟨⟩ row member
    rw [List.mem_singleton.mp member]
    decide +kernel
  · rintro (_ | k) row member
    · cases member
      rfl
    · cases member

/-- The messages with the numbers one and two are resent under the numbers one
and three. -/
theorem resend_skips_second_number :
    (timedDatabase [1, 2]).getSentMsgs (fun _ => newYearInput) 1 0 =
      some [(1, timedMessage), (2, timedMessage)] ∧
    (resend fix42PusherArgs .fix42 false (fun _ => newYearInput)
        romeoRegistered 1 [timedMessage, timedMessage]).map
      (fun result => (result.1.written, result.2)) =
      some ([completedText fix42PusherArgs (ascii ['D']) timedResent 1,
        completedText fix42PusherArgs (ascii ['D']) timedResent 3], true) := by
  decide +kernel

end Example

end MercuryFix
