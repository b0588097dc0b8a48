import MercuryFix.ByteBlocks
import MercuryFix.FixMessageFields

/-!
# Criteria of the rule engine

A criterion compares a value of an event with a fixed value.  The first eight bits
of its tag name the type of both.  `evaluate_criteria` reads the ID of a criterion
from an expression, finds the criterion in the cache and its tag in the event, and
calls the comparison for the type.

An expression is the list of its characters; the end of the list is the terminator.
Integers are read from the low bytes of their field, as on a little-endian machine.
-/

namespace MercuryFix

open ByteBlock

inductive ValueType
  | boolean
  | uint8
  | int8
  | uint16
  | int16
  | uint32
  | int32
  | uint64
  | int64
  | ieee754
  | asciiString
  | asciiStringNoCase
  | utf8String
  | utf8StringNoCase
  deriving DecidableEq

def ValueType.ofCode : Nat → Option ValueType
  | 0x00 => some boolean
  | 0x01 => some uint8
  | 0x02 => some int8
  | 0x03 => some uint16
  | 0x04 => some int16
  | 0x05 => some uint32
  | 0x06 => some int32
  | 0x07 => some uint64
  | 0x08 => some int64
  | 0x09 => some ieee754
  | 0x0A => some asciiString
  | 0x0B => some asciiStringNoCase
  | 0x0C => some utf8String
  | 0x0D => some utf8StringNoCase
  | _ => none

inductive Evaluation
  | equal
  | greaterThan
  | greaterThanOrEqual
  | lessThan
  | lessThanOrEqual
  | notEqual
  | true
  | false
  deriving DecidableEq

/-- A value of an event.  A pointer is NULL or points to a C string. -/
structure TagInstance where
  intValue : UInt64
  ptrValue : Option (List UInt8)

abbrev Event := UInt32 → Option TagInstance

structure Criteria where
  cond : Evaluation
  tag : UInt32
  intValue : UInt64
  ptrValue : Option (List UInt8)

abbrev CriteriaCache := UInt32 → Option Criteria

/-- Why an evaluation does not return: a failed assertion, a use of a NULL pointer
or of a bad `bool`, a read behind the terminator, or no end of its steps. -/
inductive RuleFault
  | assertion
  | undefined
  | beyond
  | unfinished
  deriving DecidableEq

section Comparisons

def evalGeneric {T : Type} [DecidableEq T] [LT T] [DecidableLT T] (lval : T)
    (cond : Evaluation) (rval : T) : Except RuleFault Bool :=
  match cond with
  | .equal => .ok (decide (lval = rval))
  | .greaterThan => .ok (decide (rval < lval))
  | .lessThan => .ok (decide (lval < rval))
  | .notEqual => .ok (decide (lval ≠ rval))
  | .true => .ok Bool.true
  | .false => .ok Bool.false
  | .greaterThanOrEqual | .lessThanOrEqual => .error .assertion

def strcmp : List UInt8 → List UInt8 → Ordering
  | [], [] => .eq
  | [], _ :: _ => .lt
  | _ :: _, [] => .gt
  | left :: lefts, right :: rights => (compare left right).then (strcmp lefts rights)

def toLower (byte : UInt8) : UInt8 := if 65 ≤ byte && byte ≤ 90 then byte + 32 else byte

def strcasecmp (left right : List UInt8) : Ordering := strcmp (left.map toLower) (right.map toLower)

def evalString (compares : List UInt8 → List UInt8 → Ordering)
    (lval : Option (List UInt8)) (cond : Evaluation)
    (rval : Option (List UInt8)) : Except RuleFault Bool :=
  let compared (holds : Ordering → Bool) : Except RuleFault Bool :=
    match lval, rval with
    | some lval, some rval => .ok (holds (compares (cString lval) (cString rval)))
    | _, _ => .error .undefined
  match cond with
  | .equal => compared (· == .eq)
  | .greaterThan => compared (· == .gt)
  | .lessThan => compared (· == .lt)
  | .notEqual => compared (· != .eq)
  | .true => .ok Bool.true
  | .false => .ok Bool.false
  | .greaterThanOrEqual | .lessThanOrEqual => .error .assertion

def evalStringCase := evalString strcmp

def evalStringNoCase := evalString strcasecmp

def unsignedField (bits : Nat) (field : UInt64) : Int := (field.toNat % 2 ^ bits : Nat)

def signedField (bits : Nat) (field : UInt64) : Int := (field.toNat : Int).bmod (2 ^ bits)

def boolField (field : UInt64) : Except RuleFault Bool :=
  match field.toNat % 2 ^ 8 with
  | 0 => .ok false
  | 1 => .ok true
  | _ => .error .undefined

def evalBoolean (lval : UInt64) (cond : Evaluation) (rval : UInt64) :
    Except RuleFault Bool :=
  match cond with
  | .true => .ok Bool.true
  | .false => .ok Bool.false
  | .greaterThanOrEqual | .lessThanOrEqual => .error .assertion
  | _ => do evalGeneric (← boolField lval) cond (← boolField rval)

end Comparisons

section Lookup

def isHexDigit (byte : UInt8) : Bool :=
  (48 ≤ byte && byte ≤ 57) || (65 ≤ byte && byte ≤ 70) || (97 ≤ byte && byte ≤ 102)

def hexDigitValue (byte : UInt8) : Nat :=
  if byte ≤ 57 then byte.toNat - 48
  else if byte ≤ 70 then byte.toNat - 55
  else byte.toNat - 87

def hexValue (digits : List UInt8) : Nat :=
  digits.foldl (fun number digit => 16 * number + hexDigitValue digit) 0

/-- An optional `0x`, which counts only in front of a digit. -/
def skipHexPrefix (text : List UInt8) : List UInt8 :=
  match text with
  | 48 :: x :: digit :: rest =>
    if (x == 120 || x == 88) && isHexDigit digit then digit :: rest else text
  | _ => text

/-- `strtoul` in base sixteen: the number and the text behind it.  Without a digit
nothing is converted. -/
def strtoul (text : List UInt8) : Nat × List UInt8 :=
  let trimmed := text.dropWhile isSpace
  let negated := trimmed.head? == some 45
  let unsigned := if negated || trimmed.head? == some 43 then trimmed.drop 1 else trimmed
  let body := skipHexPrefix unsigned
  let digits := body.takeWhile isHexDigit
  if digits = [] then (0, text)
  else
    let number := hexValue digits
    (if 2 ^ 64 ≤ number then 2 ^ 64 - 1
      else if negated then (2 ^ 64 - number) % 2 ^ 64
      else number, body.dropWhile isHexDigit)

/-- What an evaluation reads apart from the expression.  `errno` is not cleared in
front of `strtoul`, so that the text does not say whether it is `EINVAL`. -/
structure RuleContext where
  incident : Event
  criteriaCache : CriteriaCache
  einval : List UInt8 → Bool

variable (context : RuleContext)

/-- The part of `evaluate_criteria` behind the two lookups. -/
def evaluateFound (value : TagInstance) (criteria : Criteria) :
    Except RuleFault Bool :=
  let generic (field : UInt64 → Int) :=
    evalGeneric (field value.intValue) criteria.cond (field criteria.intValue)
  match ValueType.ofCode (criteria.tag.toNat / 2 ^ 24) with
  | some .boolean =>
    evalBoolean value.intValue criteria.cond criteria.intValue
  | some .uint8 => generic (unsignedField 8)
  | some .int8 => generic (signedField 8)
  | some .uint16 => generic (unsignedField 16)
  | some .int16 => generic (signedField 16)
  | some .uint32 => generic (unsignedField 32)
  | some .int32 => generic (signedField 32)
  | some .asciiString =>
    evalStringCase value.ptrValue criteria.cond criteria.ptrValue
  | some .asciiStringNoCase =>
    evalStringNoCase value.ptrValue criteria.cond criteria.ptrValue
  | _ => .ok false

/-- The criterion with an ID. -/
def evaluateId (criteriaId : UInt32) : Except RuleFault Bool :=
  match context.criteriaCache criteriaId with
  | none => .ok false
  | some criteria =>
    match context.incident criteria.tag with
    | none => .ok false
    | some value => evaluateFound value criteria

def criteriaId (expression : List UInt8) : UInt32 := UInt32.ofNat (strtoul expression).1

/-- `evaluate_criteria`: the value, and the expression behind the ID. -/
def evaluateCriteria (expression : List UInt8) :
    Except RuleFault (Bool × List UInt8) := do
  let value ←
    if criteriaId expression = 0 ∧ context.einval expression then .ok false
    else evaluateId context (criteriaId expression)
  .ok (value, (strtoul expression).2)

end Lookup

section Integers

inductive IntegerType
  | uint8
  | int8
  | uint16
  | int16
  | uint32
  | int32
  | uint64
  | int64
  deriving DecidableEq

def IntegerType.valueType : IntegerType → ValueType
  | uint8 => .uint8
  | int8 => .int8
  | uint16 => .uint16
  | int16 => .int16
  | uint32 => .uint32
  | int32 => .int32
  | uint64 => .uint64
  | int64 => .int64

def IntegerType.bits : IntegerType → Nat
  | uint8 | int8 => 8
  | uint16 | int16 => 16
  | uint32 | int32 => 32
  | uint64 | int64 => 64

def IntegerType.signed : IntegerType → Bool
  | int8 | int16 | int32 | int64 => true
  | uint8 | uint16 | uint32 | uint64 => false

def IntegerType.convert (type : IntegerType) (field : UInt64) : Int :=
  if type.signed then signedField type.bits field
  else unsignedField type.bits field

def Evaluation.Holds (left right : Int) : Evaluation → Prop
  | equal => left = right
  | greaterThan => left > right
  | greaterThanOrEqual => left ≥ right
  | lessThan => left < right
  | lessThanOrEqual => left ≤ right
  | notEqual => left ≠ right
  | true => True
  | false => False

instance (left right : Int) (cond : Evaluation) :
    Decidable (cond.Holds left right) :=
  match cond with
  | .equal => inferInstanceAs (Decidable (left = right))
  | .greaterThan => inferInstanceAs (Decidable (left > right))
  | .greaterThanOrEqual => inferInstanceAs (Decidable (left ≥ right))
  | .lessThan => inferInstanceAs (Decidable (left < right))
  | .lessThanOrEqual => inferInstanceAs (Decidable (left ≤ right))
  | .notEqual => inferInstanceAs (Decidable (left ≠ right))
  | .true => inferInstanceAs (Decidable True)
  | .false => inferInstanceAs (Decidable False)

def Evaluation.Handled (cond : Evaluation) : Prop :=
  cond ≠ .greaterThanOrEqual ∧ cond ≠ .lessThanOrEqual

theorem evalGeneric_handled {cond : Evaluation} (handled : cond.Handled) (left right : Int) :
    evalGeneric left cond right = .ok (decide (cond.Holds left right)) := by
  cases cond with
  | greaterThanOrEqual => exact absurd rfl handled.1
  | lessThanOrEqual => exact absurd rfl handled.2
  | equal | greaterThan | lessThan | notEqual | true | false => rfl

theorem evalGeneric_unhandled {cond : Evaluation} (unhandled : ¬ cond.Handled)
    (left right : Int) : evalGeneric left cond right = .error .assertion := by
  cases cond with
  | greaterThanOrEqual | lessThanOrEqual => rfl
  | equal | greaterThan | lessThan | notEqual | true | false =>
    exact absurd ⟨nofun, nofun⟩ unhandled

theorem evaluateFound_integer {type : IntegerType} {value : TagInstance} {criteria : Criteria}
    (typed : ValueType.ofCode (criteria.tag.toNat / 2 ^ 24) = some type.valueType) :
    evaluateFound value criteria = if type.bits = 64 then .ok false
      else evalGeneric (type.convert value.intValue) criteria.cond
        (type.convert criteria.intValue) := by
  unfold evaluateFound
  rw [typed]
  cases type <;>
    simp [IntegerType.valueType, IntegerType.bits, IntegerType.convert, IntegerType.signed]

/-- The comparison is not made: the type has 64 bits, or the ID is zero while
`errno` is `EINVAL`. -/
def Skipped (context : RuleContext) (expression : List UInt8) (type : IntegerType) : Prop :=
  type.bits = 64 ∨ criteriaId expression = 0 ∧ context.einval expression = true

/-- A criterion of an integer type that is in the cache, with a tag that is in the
event, is compared as its condition says exactly when the comparison is made and
has a case in `eval_generic`, or when it is not made and would have been false. -/
theorem evaluateCriteria_compares_iff (context : RuleContext)
    (expression : List UInt8) (type : IntegerType) (criteria : Criteria)
    (cached : context.criteriaCache (criteriaId expression) = some criteria)
    (typed : ValueType.ofCode (criteria.tag.toNat / 2 ^ 24) =
      some type.valueType)
    (value : TagInstance) (present : context.incident criteria.tag = some value) :
    (∃ rest, evaluateCriteria context expression =
      .ok (decide (criteria.cond.Holds (type.convert value.intValue)
        (type.convert criteria.intValue)), rest)) ↔
    (¬ Skipped context expression type ∧ criteria.cond.Handled) ∨
    (Skipped context expression type ∧
      ¬ criteria.cond.Holds (type.convert value.intValue)
        (type.convert criteria.intValue)) := by
  have evaluates : evaluateId context (criteriaId expression) =
      if type.bits = 64 then .ok false
      else evalGeneric (type.convert value.intValue) criteria.cond
        (type.convert criteria.intValue) := by
    simp only [evaluateId, cached, present]
    exact evaluateFound_integer typed
  by_cases skipped : Skipped context expression type
  · have returns : evaluateCriteria context expression =
        .ok (false, (strtoul expression).2) := by
      rw [evaluateCriteria, evaluates]
      split
      · rfl
      · rename_i valid
        rw [if_pos (skipped.resolve_right valid)]
        rfl
    simp [returns, skipped]
  · obtain ⟨narrow, valid⟩ := not_or.mp skipped
    have returns : evaluateCriteria context expression =
        (evalGeneric (type.convert value.intValue) criteria.cond
          (type.convert criteria.intValue)).map
            (·, (strtoul expression).2) := by
      rw [evaluateCriteria, evaluates, if_neg valid, if_neg narrow]
      rfl
    by_cases handled : criteria.cond.Handled
    · simp [returns, evalGeneric_handled handled, skipped, handled, Except.map]
    · simp [returns, evalGeneric_unhandled handled, skipped, handled, Except.map]

def singleContext (cond : Evaluation) (tag : UInt32) (left right : UInt64) :
    RuleContext where
  incident other := if other = tag then some ⟨left, none⟩ else none
  criteriaCache other := if other = 1 then some ⟨cond, tag, right, none⟩ else none
  einval _ := false

/-- As signed bytes 253 is less than five. -/
theorem evaluateCriteria_compares_negative :
    Evaluation.lessThan.Holds (IntegerType.int8.convert 253)
      (IntegerType.int8.convert 5) ∧
    ∃ rest, evaluateCriteria (singleContext .lessThan 0x02000009 253 5)
      (ascii ['1']) = .ok (decide (Evaluation.lessThan.Holds
        (IntegerType.int8.convert 253) (IntegerType.int8.convert 5)), rest) :=
  ⟨by decide, (evaluateCriteria_compares_iff
    (singleContext .lessThan 0x02000009 253 5) (ascii ['1']) .int8
    ⟨.lessThan, 0x02000009, 5, none⟩ rfl rfl ⟨253, none⟩ rfl).mpr
      (.inl ⟨by rintro (wide | ⟨-, invalid⟩) <;> contradiction, nofun, nofun⟩)⟩

/-- Equal values of 64 bits are not found equal, and four is not found to be at
least four. -/
theorem evaluateCriteria_not_compared :
    evaluateCriteria (singleContext .equal 0x07000009 4 4) (ascii ['1']) =
      .ok (false, []) ∧
    evaluateCriteria (singleContext .greaterThanOrEqual 0x01000009 4 4)
      (ascii ['1']) = .error .assertion :=
  ⟨rfl, rfl⟩

end Integers

end MercuryFix
