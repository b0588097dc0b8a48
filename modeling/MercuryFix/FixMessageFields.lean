import MercuryFix.FixMsgTypes

/-!
# Traversing the fields of a received message

`FIXMessageRX` walks over a message field by field.  A pointer into the
message is modelled by the bytes from it to the end of the memory block, so
that `none` stands for a read beyond the block or through a NULL pointer.
-/

namespace MercuryFix

/-- A `char` promoted to `int`; it is signed on the modelled platform. -/
def charValue (character : UInt8) : Int :=
  if character.toNat < 128 then character.toNat
  else (character.toNat : Int) - 256

/-- The comparison of a `char` with a `uint8_t`. -/
def charEqByte (character byte : UInt8) : Bool := charValue character == (byte.toNat : Int)

theorem charEqByte_iff {character byte : UInt8} :
    charEqByte character byte = true ↔ character = byte ∧ character.toNat < 128 := by
  have bounded := character.toNat_lt
  have byteBounded := byte.toNat_lt
  unfold charEqByte charValue
  rw [beq_iff_eq]
  constructor
  · intro equal
    split at equal
    · rename_i plain
      exact ⟨UInt8.toNat_inj.mp (by omega), plain⟩
    · omega
  · rintro ⟨rfl, plain⟩
    rw [if_pos plain]

def maxTag : Nat := (2 ^ 31 - 1 - 9) / 10

def maxLength : Nat := (2 ^ 63 - 1 - 9) / 10

def getFixTagLoop : Nat → List UInt8 → Option (Int × List UInt8)
  | _, [] => none
  | num, c :: rest =>
    if c < 48 ∨ 57 < c then some (-1, c :: rest)
    else if maxTag < num then some (-1, c :: rest)
    else
      match rest with
      | [] => none
      | 61 :: value => some (10 * num + (c.toNat - 48), value)
      | next :: later =>
        getFixTagLoop (10 * num + (c.toNat - 48)) (next :: later)

/-- `get_fix_tag`: the tag, or -1, and the advanced pointer. -/
def getFixTag (str : List UInt8) : Option (Int × List UInt8) :=
  match str with
  | [] => none
  | c :: rest =>
    if c = 61 ∨ c = 48 then some (-1, c :: rest)
    else getFixTagLoop 0 (c :: rest)

def getFixLengthLoop (soh : UInt8) : Nat → List UInt8 → Option Int
  | _, [] => none
  | num, c :: rest =>
    if c < 48 ∨ 57 < c then some (-1)
    else if maxLength < num then some (-1)
    else
      match rest with
      | [] => none
      | next :: later =>
        if next = soh then some (10 * num + (c.toNat - 48))
        else getFixLengthLoop soh (10 * num + (c.toNat - 48)) (next :: later)

def getFixLengthValue (soh : UInt8) (str : List UInt8) : Option Int := getFixLengthLoop soh 0 str

/-- The part of a `FIXMessageRX` that traversal uses; `none` is NULL. -/
structure FixMessageRX where
  soh : UInt8
  dataTags : Nat → Bool
  pos : Option (List UInt8)
  prevValue : Option (List UInt8)

def stdDataTags : FixVersion → List Nat
  | .custom => []
  | .fix40 | .fix41 => [89, 91, 96]
  | .fix42 => [89, 91, 96, 213, 349, 351, 353, 355, 357, 359, 361, 363, 365, 446]
  | .fix43 | .fix44 | .fix50 => [89, 91, 96, 213, 349, 351, 353, 355, 357, 359, 361,
      363, 365, 446, 619, 622]
  | .fix50SP1 => [89, 91, 96, 213, 349, 351, 353, 355, 357, 359, 361, 363, 365, 446,
      619, 622, 1278, 1281, 1283, 1398, 1402, 1404]
  | .fix50SP2 => [89, 91, 96, 213, 349, 351, 353, 355, 357, 359, 361, 363, 365, 446,
      619, 622, 1278, 1281, 1283, 1398, 1402, 1404, 1469]
  | .fixT11 => [89, 91, 96, 213, 355]

def FixMessageRX.init (version : FixVersion) (soh : UInt8) : FixMessageRX where
  soh := soh
  dataTags := fun tag => (stdDataTags version).contains tag
  pos := none
  prevValue := none

structure FieldRead where
  tag : Int
  length : Nat
  value : List UInt8
  rx : FixMessageRX

def FixMessageRX.imprint (rx : FixMessageRX) (msgtypeOffset : Nat)
    (msg : List UInt8) : Option FixMessageRX :=
  if msgtypeOffset < 3 then none
  else some { rx with pos := some (msg.drop (msgtypeOffset - 3)), prevValue := none }

/-- `FIXMessageRX::next_field`.  The scan for the delimiter compares a `char`
with bytes. -/
def FixMessageRX.nextField (rx : FixMessageRX) : Option FieldRead :=
  match rx.pos with
  | none => some ⟨0, 0, [], rx⟩
  | some start =>
    match getFixTag start with
    | none => none
    | some (tag, value) =>
      if tag ≤ 0 then some ⟨-1, 0, [], rx⟩
      else if tag = 10 then some ⟨0, 0, [], rx⟩
      else if rx.dataTags tag.toNat then
        match rx.prevValue.bind (getFixLengthValue rx.soh) with
        | none => none
        | some number =>
          let prevVal := number.bmod (2 ^ 32)
          if prevVal < 0 then
            some ⟨-1, 0, [], { rx with prevValue := some value }⟩
          else
            some ⟨tag, prevVal.toNat, value,
              { rx with
                pos := some (value.drop (prevVal.toNat + 1))
                prevValue := some value }⟩
      else
        let text := value.takeWhile fun byte => !charEqByte rx.soh byte
        if text.length < value.length then
          some ⟨tag, text.length, value,
            { rx with
              pos := some (value.drop (text.length + 1))
              prevValue := some value }⟩
        else none

/-- Successive calls of `next_field`, up to the first one that returns no tag: the
tag, the length and the pointer to the value that each of the others yields, and the
last return value. -/
def FixMessageRX.traverse :
    Nat → FixMessageRX → Option (List (Int × Nat × List UInt8) × Int)
  | 0, _ => none
  | rounds + 1, rx =>
    rx.nextField.bind fun field =>
      if field.tag ≤ 0 then some ([], field.tag)
      else (traverse rounds field.rx).map fun (fields, last) =>
        ((field.tag, field.length, field.value) :: fields, last)

/-- The C locale's `isspace`. -/
def isSpace (byte : UInt8) : Bool := byte == 32 || (9 ≤ byte && byte ≤ 13)

/-- The subject of a `strtoumax` or `strtoimax` call in base ten: whether it is
negated, and its digits. -/
def numberText (str : List UInt8) : Option (Bool × List UInt8) :=
  let trimmed := str.dropWhile isSpace
  let negated := trimmed.head? == some 45
  let unsigned := if negated || trimmed.head? == some 43 then trimmed.drop 1 else trimmed
  let digits := unsigned.takeWhile fun byte => 48 ≤ byte && byte ≤ 57
  if digits.length < unsigned.length then some (negated, digits) else none

end MercuryFix
