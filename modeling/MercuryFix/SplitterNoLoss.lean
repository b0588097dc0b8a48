import MercuryFix.SplitterDelivery

/-!
# Well-formed messages in sequence are handled once

Two kinds of messages are lost.  A session message that does not fit an echo
entry is dropped with the expected number counted back, and the number
`ULLONG_MAX` is taken for an error of `strtoull`.
-/

namespace MercuryFix

open DecimalText ByteBlock

variable {args : SplitterArgs} {s : Splitter}

/-- The effects of a message that is handled exactly once. -/
inductive Handles (bytes : List UInt8) : List Effect → Prop
  | delta (number offset : Nat) :
      Handles bytes [.storeRecvMsg number bytes.length bytes,
        .deltaCommit bytes.length offset bytes]
  | echo (number offset : Nat) :
      Handles bytes [.storeRecvMsg number bytes.length bytes,
        .echoCommit bytes.length offset bytes]
  | resend (start stop : Nat) : Handles bytes [.resend start stop]
  | reject (number : Nat) (reason : String) :
      Handles bytes [.sendSessionLevelRejectMessage number reason]

variable {message : FixMessage args.soh} {number : Nat}

theorem Holding.handled_iff (holding : Holding args message s)
    (carries : CarriesNumber args.soh (message.bytes args.beginString) number)
    (next : number = s.next) :
    Handles (message.bytes args.beginString) (messageEffects args s) ∧
        (handled args s).expected = number ↔
      number ≠ 2 ^ 64 - 1 ∧ ¬ OversizedSession args message := by
  refine (holding.fate carries next).delivered_iff ?_ ?_ ?_
  · rintro effects ⟨impossible, _⟩
    rw [effects] at impossible
    cases impossible
  · rintro effects ⟨impossible, _⟩
    rw [effects] at impossible
    cases impossible
  · intro effects counted
    refine ⟨?_, counted⟩
    rw [effects, deliveredEffects]
    split
    · exact .echo number _
    · exact .delta number _

/-- A message found in a run from the initial state is held as a whole, its
number is the next one of the place where it was found, and the step that finds
it has the effects of the message. -/
theorem holding_of_found {lastReceived : UInt64} {before : List UInt8}
    {byte : UInt8} {found : Splitter} {consumed : Bool}
    (finds : progress args (splitBytes args (.initial lastReceived) before).1
      byte = .found found consumed)
    (holds : found.delta.data.take found.delta.size = message.bytes args.beginString)
    (next : number = (splitBytes args (.initial lastReceived) before).1.next) :
    Holding args message found ∧ number = found.next ∧
      (splitByte args (splitBytes args (.initial lastReceived) before).1
        byte).2 = messageEffects args found := by
  have sound := splitBytes_sound (sound_initial args lastReceived) before
  have noFault := noFault_of_found finds
  obtain ⟨assembled, expectedEq, -⟩ := progress_found (sound noFault) noFault finds
  refine ⟨⟨assembled, holds⟩, ?_, ?_⟩
  · rw [next, Splitter.next, Splitter.next, expectedEq]
  · rw [splitByte_of_found finds]

/-- For every message the splitter finds in a stream that is well formed and
carries the next number: its effects stand once in the effects of the run, and
it is handled with the expected number moved on to it, unless it is an
oversized session message or carries the largest number. -/
theorem found_message_handled_iff (args : SplitterArgs) (lastReceived : UInt64)
    (entries : List FoxtrotEntry) (before after : List UInt8) (byte : UInt8)
    (splits : streamOf entries = before ++ byte :: after) (s found : Splitter)
    (reached : s = (splitBytes args (.initial lastReceived) before).1)
    (consumed : Bool) (finds : progress args s byte = .found found consumed)
    (message : FixMessage args.soh)
    (holds : found.delta.data.take found.delta.size =
      message.bytes args.beginString)
    (number : Nat)
    (carries : CarriesNumber args.soh (message.bytes args.beginString) number)
    (next : number = s.next) :
    (splitEntries args (.initial lastReceived) entries).2 =
        (splitBytes args (.initial lastReceived) before).2 ++
          ((splitByte args s byte).2 ++
            (splitBytes args (splitByte args s byte).1 after).2) ∧
      (Handles (message.bytes args.beginString) (splitByte args s byte).2 ∧
          (splitByte args s byte).1.expected = number ↔
        number ≠ 2 ^ 64 - 1 ∧ ¬ OversizedSession args message) := by
  subst reached
  obtain ⟨holding, foundNext, effects⟩ := holding_of_found finds holds next
  refine ⟨splitEntries_effects_at args lastReceived splits, ?_⟩
  rw [effects, splitByte_expected holding.toAssembled finds]
  exact holding.handled_iff carries foundNext

theorem found_message_handled_iff_order :
    Handles (orderMessage.bytes fix41Args.beginString)
      (splitByte fix41Args (splitBytes fix41Args (.initial 0)
        orderEntry.data.dropLast).1 1).2 := by
  have finds : progress fix41Args (splitBytes fix41Args (.initial 0)
      orderEntry.data.dropLast).1 1 =
        .found ((splitBytes fix41Args (.initial 0)
          orderEntry.data.dropLast).1.copied 1) true := by
    decide +kernel
  have small : 1 ≠ 2 ^ 64 - 1 ∧ ¬ OversizedSession fix41Args orderMessage := by
    constructor
    · decide
    · unfold OversizedSession
      decide +kernel
  exact ((found_message_handled_iff fix41Args 0 [orderEntry]
    orderEntry.data.dropLast [] 1 (by decide +kernel) _ _ rfl true finds
    orderMessage (by decide +kernel) 1 orderMessage_carries
    (by decide +kernel)).2.mpr small).1

def oversizedMessage : FixMessage 1 where
  digits := ascii ['4', '9', '4']
  msgType := ascii ['0']
  fields := ascii ['3', '4', '=', '1'] ++ 1 :: ascii ['5', '8', '='] ++ List.replicate 480 97 ++ [1]
  areDigits := by decide +kernel
  closed := by decide
  typed := by decide
  delimited := by decide
  ends := by decide +kernel
  counts := by decide +kernel

def oversizedEntry : FoxtrotEntry where
  data := oversizedMessage.bytes fix41Args.beginString
  fits := by decide +kernel

/-- The oversized heartbeat vanishes and its number stays expected. -/
theorem oversized_session_lost :
    CarriesNumber 1 (oversizedMessage.bytes fix41Args.beginString) 1 ∧
      (splitEntries fix41Args (.initial 0) [oversizedEntry]).2 = [] ∧
      (splitEntries fix41Args (.initial 0) [oversizedEntry]).1.expected = 0 := by
  refine ⟨⟨fix41Args.beginString ++ ascii ['4', '9', '4'] ++
      1 :: ascii ['3', '5', '=', '0'], ascii ['1'],
      ascii ['5', '8', '='] ++ List.replicate 480 97 ++
        1 :: oversizedMessage.trailer fix41Args.beginString,
      by decide +kernel, by decide +kernel, by decide +kernel,
      by decide +kernel, by decide, by decide⟩, ?_, ?_⟩
  · decide +kernel
  · decide +kernel

end MercuryFix
