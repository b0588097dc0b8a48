import MercuryFix.ComposerRuns
import MercuryFix.FoxtrotLine
import MercuryFix.NumberReadings
import MercuryFix.OutgoingDelivery
import MercuryFix.SenderReceiverRoundTrip

/-!
# From one session to the other

What is pushed on one side arrives on the other side.  The pusher thread merges
the queues into one stream, the stream comes in any pieces through foxtrot, and
the splitter delivers one message after the other.
-/

namespace MercuryFix

open ByteBlock DecimalText TransitionSystem Composition

section

variable {args : SplitterArgs} {version : List UInt8} {s : Splitter} {request : PushRequest}
  (mallocs : ∀ count, args.mallocSucceeds count = true) (plain : args.Plain)
  (agreed : Agreed args version)
include mallocs plain agreed

end

section

variable {args : SplitterArgs} {version : List UInt8} {s : Splitter} {request : PushRequest}

def Composition.fieldList (composition : Composition) : List Field :=
  composition.fields.map fun field => ⟨field.1, field.2⟩

theorem Composition.text_eq (soh : UInt8) (composition : Composition) :
    composition.text soh = soh :: fieldsText soh composition.fieldList := by
  simp [text, fieldsText, fieldList, List.flatMap_map, Field.text]

end

end MercuryFix
