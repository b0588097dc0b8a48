import MercuryFix.ByteBlocks
import MercuryFix.FixFields
import MercuryFix.FixMsgTypes

/-!
# FIX messages on the wire

A message is the begin string with the tag of BodyLength, the length of the
body in decimal digits, the body, whose first field is MsgType, and the
checksum field.
-/

namespace MercuryFix

open DecimalText ByteBlock

/-- The parts of a well-formed message.  `fields` is what follows the MsgType
field in the body. -/
structure FixMessage (soh : UInt8) where
  digits : List UInt8
  msgType : List UInt8
  fields : List UInt8
  areDigits : ∀ byte ∈ digits, isDigit byte = true
  closed : soh ∉ digits
  typed : msgType ≠ []
  delimited : soh ∉ msgType
  ends : fields = [] ∨ fields.getLast? = some soh
  counts : value digits = (ascii ['3', '5', '='] ++ msgType ++ soh :: fields).length

namespace FixMessage

variable {soh : UInt8} (message : FixMessage soh) (beginString : List UInt8)

def body : List UInt8 := ascii ['3', '5', '='] ++ message.msgType ++ soh :: message.fields

def summed : List UInt8 := beginString ++ message.digits ++ soh :: message.body

def trailer : List UInt8 :=
  ascii ['1', '0', '='] ++ sprintf03u (getFIXChecksum (message.summed beginString)) ++ [soh]

def bytes : List UInt8 := message.summed beginString ++ message.trailer beginString

theorem length_trailer : (message.trailer beginString).length = 7 := by
  have width := length_sprintf03u (getFIXChecksum_lt (message.summed beginString))
  simp [trailer, ascii, width]

theorem length_bytes : (message.bytes beginString).length =
      beginString.length + message.digits.length + message.body.length + 8 := by
  rw [bytes, List.length_append, length_trailer, summed]
  simp only [List.length_append, List.length_cons]
  omega

end FixMessage

def seqnumTag (soh : UInt8) : List UInt8 := soh :: ascii ['3', '4', '=']

def CarriesNumber (soh : UInt8) (bytes : List UInt8) (number : Nat) : Prop :=
  ∃ front digits back,
    bytes = front ++ seqnumTag soh ++ digits ++ soh :: back ∧
      memmem (seqnumTag soh) bytes = some front.length ∧
      digits ≠ [] ∧ (∀ byte ∈ digits, isDigit byte = true) ∧
      soh ∉ digits ∧ value digits = number

/-- What `begin_string_` and `FIX_start_bytes_` hold. -/
structure BeginString where
  text : List UInt8
  terminated : (0 : UInt8) ∉ text
  fits : text.length < 32

def BeginString.empty : BeginString := ⟨[], by simp, by simp⟩

/-- What `snprintf` leaves in the array for a version. -/
def BeginString.ofVersion (soh : UInt8) (version : List UInt8) :
    BeginString where
  text := cString ((ascii ['8', '='] ++ version ++ soh :: ascii ['9', '=']).take 31)
  terminated := noNul_cString _
  fits := by
    exact Nat.lt_succ_of_le ((List.takeWhile_prefix _).length_le.trans (List.length_take_le 31 _))

end MercuryFix
