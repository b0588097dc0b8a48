import MercuryFix.FixMessageCompletion
import MercuryFix.FixMessageTX
import MercuryFix.SplitterNoLoss

/-!
# Asking for a resend and answering

The splitter answers a gap with a ResendRequest that it never manages to
compose, and it hands a ResendRequest that it receives to the session queue
like any other session message.
-/

namespace MercuryFix

open DecimalText ByteBlock

section Requesting

/-- How the functions that send a message end: without a call of `push`, or
with one.  The arguments of that call are none when `expose` has left them
unset. -/
inductive Sending
  | refused
  | pushed (exposed : Option Exposed)
  deriving DecidableEq

def appendFields : FixMessageTX → List (Nat × List UInt8) →
    Option (FixMessageTX × Bool)
  | tx, [] => some (tx, true)
  | tx, (tag, value) :: rest => do
      let appended ← tx.appendField tag value
      if appended.2 then appendFields appended.1 rest
      else some (appended.1, false)

/-- The common body of the functions that send a message. -/
def sendMessage (tx : FixMessageTX) (fields : List (Nat × List UInt8)) :
    Option (FixMessageTX × Sending) := do
  let appended ← appendFields tx fields
  if appended.2 then
    let exposed ← appended.1.expose
    some (exposed.1, .pushed exposed.2)
  else some (appended.1, .refused)

def sendSessionLevelRejectMessage (tx : FixMessageTX) (rejectedSeqNum : Nat) (reason : String) :
    Option (FixMessageTX × Sending) := do
  let seqnum ← uintText rejectedSeqNum
  sendMessage tx [(35, ascii ['3']), (45, seqnum), (58, ascii reason.toList)]

def sendResendRequestMessage (tx : FixMessageTX) (start : Nat) :
    Option (FixMessageTX × Sending) := do
  let number ← uintText start
  sendMessage tx [(35, ascii ['2']), (45, number), (16, ascii ['0'])]

def sendResendRequests : FixMessageTX → List Nat → Option FixMessageTX
  | tx, [] => some tx
  | tx, start :: rest => do
      let sent ← sendResendRequestMessage tx start
      sendResendRequests sent.1 rest

variable {tx next : FixMessageTX}

theorem appendFields_sendingTimeAppended {fields : List (Nat × List UInt8)} {done : Bool}
    (timeless : ∀ field ∈ fields, field.1 ≠ 52)
    (unset : tx.sendingTimeAppended = false)
    (appends : appendFields tx fields = some (next, done)) :
    next.sendingTimeAppended = false := by
  induction fields generalizing tx with
  | nil =>
    cases appends
    exact unset
  | cons field fields induction =>
    simp only [appendFields, Option.bind_eq_bind, Option.bind_eq_some_iff] at appends
    obtain ⟨⟨middle, first⟩, here, rest⟩ := appends
    have other : field.1 ≠ 52 := timeless field List.mem_cons_self
    have still : middle.sendingTimeAppended = false := by
      rw [(FixMessageTX.appendField_frame here).2, unset]
      simpa using other
    split at rest
    · exact induction (fun later member =>
        timeless later (List.mem_cons_of_mem _ member)) still rest
    · cases rest
      exact still

theorem sendMessage_unexposed {fields : List (Nat × List UInt8)}
    {sending : Sending} (timeless : ∀ field ∈ fields, field.1 ≠ 52)
    (unset : tx.sendingTimeAppended = false)
    (sends : sendMessage tx fields = some (next, sending)) :
    (sending = .refused ∨ sending = .pushed none) ∧ next.sendingTimeAppended = false := by
  simp only [sendMessage, Option.bind_eq_bind, Option.bind_eq_some_iff] at sends
  obtain ⟨⟨composed, done⟩, appends, ends⟩ := sends
  have still := appendFields_sendingTimeAppended timeless unset appends
  split at ends
  · simp [FixMessageTX.expose, still] at ends
    obtain ⟨rfl, rfl⟩ := ends
    exact ⟨.inr rfl, still⟩
  · cases ends
    exact ⟨.inl rfl, still⟩

theorem sendResendRequestMessage_unexposed {start : Nat} {sending : Sending}
    (unset : tx.sendingTimeAppended = false)
    (sends : sendResendRequestMessage tx start = some (next, sending)) :
    (sending = .refused ∨ sending = .pushed none) ∧ next.sendingTimeAppended = false := by
  simp only [sendResendRequestMessage, Option.bind_eq_bind, Option.bind_eq_some_iff] at sends
  obtain ⟨number, -, sends⟩ := sends
  exact sendMessage_unexposed (by simp) unset sends

theorem sendResendRequests_sendingTimeAppended {earlier : List Nat}
    (unset : tx.sendingTimeAppended = false) (sends : sendResendRequests tx earlier = some next) :
    next.sendingTimeAppended = false := by
  induction earlier generalizing tx with
  | nil =>
    cases sends
    exact unset
  | cons start earlier induction =>
    simp only [sendResendRequests, Option.bind_eq_bind, Option.bind_eq_some_iff] at sends
    obtain ⟨⟨middle, sending⟩, here, rest⟩ := sends
    exact induction (sendResendRequestMessage_unexposed unset here).2 rest

/-- A pushed message that asks for everything from `first` on, as the field
loop of the splitter reads it once it is completed. -/
structure AsksFrom (args : PusherArgs) (dataTags : Nat → Bool) (first : Nat)
    (exposed : Exposed) : Prop where
  starts : [args.soh] <+: exposed.partialMsg
  ends : args.soh :: ascii ['1', '0', '='] <:+ exposed.partialMsg
  typed : exposed.msgType = ascii ['2']
  reads : ∀ number < 2 ^ 64, ∃ rx fields,
    (FixMessageRX.mk args.soh dataTags none none).imprint
        (args.fixStart.length + (render (bodyLengthOf exposed.msgType number
          exposed.partialMsg.length)).length + 4)
        (completedText args exposed.msgType exposed.partialMsg number) =
      some rx ∧
    resendRequestLoop ((completedText args exposed.msgType exposed.partialMsg
        number).length + 1) rx ⟨0, none, none, false⟩ = some fields ∧
    fields.beginSeqnum = some first ∧ fields.endSeqnum = some 0

/-- Behind no number of earlier requests does the splitter pass a message to
`push` that asks for what is missing. -/
theorem resend_request_not_composed (args : PusherArgs)
    (dataTags : Nat → Bool) {earlier : List Nat} {tx : FixMessageTX}
    (reached : sendResendRequests (.init args.soh) earlier = some tx)
    (lastReceived : Nat) :
    ¬ ∃ next exposed, sendResendRequestMessage tx lastReceived =
        some (next, .pushed (some exposed)) ∧
      AsksFrom args dataTags (lastReceived + 1) exposed := by
  rintro ⟨next, exposed, sends, -⟩
  have unset := sendResendRequests_sendingTimeAppended rfl reached
  obtain ⟨refused | empty, -⟩ := sendResendRequestMessage_unexposed unset sends
  · cases refused
  · cases empty

theorem resend_request_not_composed_second : ∃ tx,
    sendResendRequests (.init 1) [7] = some tx ∧
    ¬ ∃ next exposed, sendResendRequestMessage tx 7 =
        some (next, .pushed (some exposed)) ∧
      AsksFrom ⟨[], 1⟩ (fun _ => false) 8 exposed := by
  have evaluated : (sendResendRequests (.init 1) [7]).isSome = true := by
    decide +kernel
  obtain ⟨tx, reached⟩ := Option.isSome_iff_exists.mp evaluated
  exact ⟨tx, reached, resend_request_not_composed ⟨[], 1⟩ _ reached 7⟩

/-- The first request behind message 5: `push` is called with unset arguments,
and what has been composed carries the last received number under tag 45. -/
theorem first_resend_request_unset :
    (sendResendRequestMessage (.init 1) 5).map (fun sent =>
        (sent.1.buf.take sent.1.length, sent.2)) =
      some (1 :: (ascii ['4', '5', '=', '5'] ++ 1 ::
        (ascii ['1', '6', '=', '0'] ++ [1])), .pushed none) := by
  decide +kernel

end Requesting

section Answering

/-- One call of `resend` and nothing for the session queue. -/
def AnswersResendRequest (beginSeqnum endSeqnum : Nat) (effects : List Effect) : Prop :=
  effects.count (.resend beginSeqnum endSeqnum) = 1 ∧
    ∀ size offset data, .echoCommit size offset data ∉ effects

variable {args : SplitterArgs} {s : Splitter} {message : FixMessage args.soh}
  {number : Nat}

theorem Holding.resend_request (holding : Holding args message s)
    (carries : CarriesNumber args.soh (message.bytes args.beginString) number)
    (next : number = s.next)
    (typed : message.msgType = ascii ['2']) :
    (∀ start stop, .resend start stop ∉ messageEffects args s) ∧
      (number ≠ 2 ^ 64 - 1 → ¬ OversizedSession args message →
        .echoCommit (message.bytes args.beginString).length
          (args.beginString.length + message.digits.length + 4)
          (message.bytes args.beginString) ∈ messageEffects args s) := by
  have session : isSessionMessage (lookupMsgtype message.msgType) = true := by
    rw [typed]
    decide
  cases holding.fate carries next with
  | last isLast effects =>
    rw [effects]
    exact ⟨by simp, fun below => absurd isLast below⟩
  | dropped below oversized effects =>
    rw [effects]
    exact ⟨by simp, fun _ fits => absurd oversized fits⟩
  | delivered below fits effects =>
    rw [effects, deliveredEffects, if_pos session]
    exact ⟨by simp, fun _ _ => by simp⟩

/-- A ResendRequest in sequence is never answered by the splitter, whatever
its fields; it goes to the session queue. -/
theorem resend_request_not_answered (args : SplitterArgs)
    (lastReceived : UInt64) (entries : List FoxtrotEntry) (before after : List UInt8) (byte : UInt8)
    (splits : streamOf entries = before ++ byte :: after) (s found : Splitter)
    (reached : s = (splitBytes args (.initial lastReceived) before).1)
    (consumed : Bool) (finds : progress args s byte = .found found consumed)
    (message : FixMessage args.soh)
    (holds : found.delta.data.take found.delta.size =
      message.bytes args.beginString)
    (number : Nat)
    (carries : CarriesNumber args.soh (message.bytes args.beginString) number)
    (next : number = s.next) (typed : message.msgType = ascii ['2'])
    (beginSeqnum endSeqnum : Nat) :
    (splitEntries args (.initial lastReceived) entries).2 =
        (splitBytes args (.initial lastReceived) before).2 ++
          ((splitByte args s byte).2 ++
            (splitBytes args (splitByte args s byte).1 after).2) ∧
      ¬ AnswersResendRequest beginSeqnum endSeqnum (splitByte args s byte).2 ∧
      (number ≠ 2 ^ 64 - 1 → ¬ OversizedSession args message →
        .echoCommit (message.bytes args.beginString).length
          (args.beginString.length + message.digits.length + 4)
          (message.bytes args.beginString) ∈ (splitByte args s byte).2) := by
  subst reached
  obtain ⟨holding, foundNext, effects⟩ := holding_of_found finds holds next
  obtain ⟨unanswered, handed⟩ := holding.resend_request carries foundNext typed
  refine ⟨splitEntries_effects_at args lastReceived splits, ?_, ?_⟩
  · rintro ⟨once, -⟩
    rw [effects, List.count_eq_zero.mpr (unanswered _ _)] at once
    cases once
  · rw [effects]
    exact handed

def resendRequestMessage : FixMessage 1 where
  digits := ascii ['1', '9']
  msgType := ascii ['2']
  fields := ascii ['3', '4', '=', '1'] ++ 1 :: ascii ['7', '=', '1'] ++
    1 :: ascii ['1', '6', '=', '0'] ++ [1]
  areDigits := by decide +kernel
  closed := by decide
  typed := by decide
  delimited := by decide
  ends := by decide
  counts := by decide

def resendRequestEntry : FoxtrotEntry where
  data := resendRequestMessage.bytes fix41Args.beginString
  fits := by decide +kernel

theorem resendRequestMessage_carries :
    CarriesNumber 1 (resendRequestMessage.bytes fix41Args.beginString) 1 :=
  ⟨fix41Args.beginString ++ ascii ['1', '9'] ++ 1 :: ascii ['3', '5', '=', '2'],
    ascii ['1'], ascii ['7', '=', '1'] ++ 1 :: ascii ['1', '6', '=', '0'] ++
      1 :: resendRequestMessage.trailer fix41Args.beginString,
    by decide +kernel, by decide +kernel, by decide +kernel,
    by decide +kernel, by decide, by decide⟩

theorem resend_request_not_answered_first :
    ¬ AnswersResendRequest 1 0 (splitByte fix41Args (splitBytes fix41Args
      (.initial 0) resendRequestEntry.data.dropLast).1 1).2 := by
  have finds : progress fix41Args (splitBytes fix41Args (.initial 0)
      resendRequestEntry.data.dropLast).1 1 =
        .found ((splitBytes fix41Args (.initial 0)
          resendRequestEntry.data.dropLast).1.copied 1) true := by
    decide +kernel
  exact (resend_request_not_answered fix41Args 0 [resendRequestEntry]
    resendRequestEntry.data.dropLast [] 1 (by decide +kernel) _ _ rfl true finds
    resendRequestMessage (by decide +kernel) 1 resendRequestMessage_carries
    (by decide +kernel) rfl 1 0).2.1

/-- The request is stored and handed to the session queue. -/
theorem resend_request_to_echo :
    (splitEntries fix41Args (.initial 0) [resendRequestEntry]).2 =
      [.storeRecvMsg 1 41 (resendRequestMessage.bytes fix41Args.beginString),
        .echoCommit 41 18
          (resendRequestMessage.bytes fix41Args.beginString)] := by
  decide +kernel

end Answering

end MercuryFix
