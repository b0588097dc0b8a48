import MercuryFix.FixPushBuffer
import MercuryFix.Overlays

/-!
# Marshalling

`vmarshal_size`, `vmarshal` and `vunmarshal` of the little-endian build.  Each of
them walks over the format in the same way: an optional `%` with an optional `u`,
and then one character, which may be the terminator.

An integer argument is a number, of which as many bits count as its specifier says.
The conversions of `ieee754.cpp` are parameters.  `none` stands for a `va_arg`
without a matching argument and for an access outside of the memory.  `strdup`
succeeds.
-/

namespace MercuryFix

open ByteBlock

inductive Specifier
  | string
  | byte
  | word
  | long
  | quad
  | float
  | double
  deriving DecidableEq

def Specifier.char : Specifier → UInt8
  | string => 0x73
  | byte => 0x62
  | word => 0x77
  | long => 0x6C
  | quad => 0x4C
  | float => 0x66
  | double => 0x46

/-- A character of a format, as the functions tell them apart. -/
inductive FormatChar
  | percent
  | u
  | specifier (specifier : Specifier)
  | other
  deriving DecidableEq

def FormatChar.ofByte : UInt8 → FormatChar
  | 0x25 => percent
  | 0x75 => u
  | 0x73 => specifier .string
  | 0x62 => specifier .byte
  | 0x77 => specifier .word
  | 0x6C => specifier .long
  | 0x4C => specifier .quad
  | 0x66 => specifier .float
  | 0x46 => specifier .double
  | _ => other

/-- What a round of the loop over a format sees: whether there is a `%`, and then
whether a `u` follows, and the character behind them, if it is not the
terminator. -/
structure Directive where
  sign : Option Bool
  char : Option FormatChar
  deriving DecidableEq

def directivesOf : List FormatChar → List Directive
  | [] => []
  | [.percent] => [⟨some false, none⟩]
  | [.percent, .u] => [⟨some true, none⟩]
  | .percent :: .u :: char :: rest => ⟨some true, some char⟩ :: directivesOf rest
  | .percent :: char :: rest => ⟨some false, some char⟩ :: directivesOf rest
  | char :: rest => ⟨none, some char⟩ :: directivesOf rest

def directives (format : List UInt8) : List Directive := directivesOf (format.map FormatChar.ofByte)

inductive Arg (Double : Type)
  | string (text : Option (List UInt8))
  | integer (value : Int)
  | double (value : Double)

inductive Value (Double : Type)
  | string (text : List UInt8)
  | integer (value : Int)
  | double (value : Double)

/-- The functions of `ieee754.cpp`, the first one behind the cast to `float`. -/
structure Ieee754 (Double : Type) where
  pack32 : Double → Nat
  pack64 : Double → Nat
  unpack32 : Nat → Double
  unpack64 : Nat → Double

variable {Double : Type}

section Size

def Specifier.size : Specifier → Arg Double → Option Nat
  | string, .string (some text) => some ((cString text).length + 1)
  | string, .string none => some 0
  | byte, .integer _ => some 8
  | word, .integer _ => some 16
  | long, .integer _ => some 32
  | quad, .integer _ => some 64
  | float, .double _ => some 32
  | double, .double _ => some 64
  | _, _ => none

def vmarshalSizeLoop : List Directive → List (Arg Double) → Nat → Option Nat
  | [], _, retv => some retv
  | ⟨none, _⟩ :: rest, args, retv => vmarshalSizeLoop rest args retv
  | ⟨some _, some (.specifier specifier)⟩ :: rest, args, retv =>
    match args with
    | [] => none
    | arg :: args => do
        let size ← specifier.size arg
        vmarshalSizeLoop rest args ((retv + size) % 2 ^ 32)
  | ⟨some _, _⟩ :: _, _, retv => some retv

def vmarshalSize (format : List UInt8) (args : List (Arg Double)) : Option Nat :=
  vmarshalSizeLoop (directives format) args 0

end Size

section Write

def Specifier.inc : Specifier → List (Arg Double) → Option Nat
  | string, .string (some text) :: _ => some ((cString text).length + 1)
  | string, _ => none
  | byte, _ => some 8
  | word, _ => some 16
  | long, _ => some 32
  | quad, _ => some 64
  | float, _ => some 32
  | double, _ => some 64

/-- The bytes of an integer, most significant first.  The signed and the unsigned
conversion keep the same ones. -/
def integerBytes (width : Nat) (value : Int) : List UInt8 :=
  bigEndian width (value % 256 ^ width).toNat

theorem length_integerBytes (width : Nat) (value : Int) :
    (integerBytes width value).length = width :=
  length_bigEndian width _

/-- What an argument writes, and how far `vmarshal` moves on. -/
def Specifier.patch (ieee : Ieee754 Double) :
    Specifier → Arg Double → Option (Patch UInt8)
  | string, .string (some text) =>
    some ⟨cString text ++ [0], (cString text).length + 1, by simp⟩
  | byte, .integer value =>
    some ⟨integerBytes 1 value, 8, by simp [length_integerBytes]⟩
  | word, .integer value =>
    some ⟨integerBytes 2 value, 16, by simp [length_integerBytes]⟩
  | long, .integer value =>
    some ⟨integerBytes 4 value, 32, by simp [length_integerBytes]⟩
  | quad, .integer value =>
    some ⟨integerBytes 8 value, 64, by simp [length_integerBytes]⟩
  | float, .double value =>
    some ⟨setu32 (ieee.pack32 value), 32, by simp [setu32]⟩
  | double, .double value =>
    some ⟨setu64 (ieee.pack64 value), 64, by simp [setu64]⟩
  | _, _ => none

structure Marshalled where
  done : Bool
  count : Nat
  buf : List UInt8
  deriving DecidableEq

def vmarshalLoop (ieee : Ieee754 Double) (len : Nat) :
    List Directive → List (Arg Double) → List UInt8 → Nat → Option Marshalled
  | [], _, buf, count => some ⟨true, count, buf⟩
  | ⟨_, some (.specifier specifier)⟩ :: rest, args, buf, count => do
      let inc ← specifier.inc args
      if len < count + inc then some ⟨false, count, buf⟩
      else
        match args with
        | [] => none
        | arg :: args => do
            let patch ← specifier.patch ieee arg
            let buf ← memcpy buf count patch.cells
            if len = count + inc then
              some ⟨rest.isEmpty, count + inc, buf⟩
            else vmarshalLoop ieee len rest args buf (count + inc)
  -- The loop goes on behind the terminator.
  | ⟨_, none⟩ :: _, _, _, _ => none
  | ⟨_, some _⟩ :: rest, args, buf, count =>
    vmarshalLoop ieee len rest args buf count

def vmarshal (ieee : Ieee754 Double) (buf : List UInt8) (len : Nat)
    (format : List UInt8) (args : List (Arg Double)) : Option Marshalled :=
  if len = 0 then some ⟨false, 0, buf⟩
  else vmarshalLoop ieee len (directives format) args buf 0

end Write

section Read

def readInteger (unSigned : Bool) (width : Nat) (memory : List UInt8) :
    Option Int :=
  if width ≤ memory.length then
    let number := ofBigEndian (memory.take width)
    some (if unSigned then number else (number : Int).bmod (256 ^ width))
  else none

/-- What is read from the memory, and how far `vunmarshal` moves on. -/
def Specifier.read (ieee : Ieee754 Double) (unSigned : Bool)
    (memory : List UInt8) : Specifier → Option (Value Double × Nat)
  | string =>
    if 0 ∈ memory then
      some (.string (cString memory), (cString memory).length + 1)
    else none
  | byte => do some (.integer (← readInteger unSigned 1 memory), 8)
  | word => do some (.integer (← readInteger unSigned 2 memory), 16)
  | long => do some (.integer (← readInteger unSigned 4 memory), 32)
  | quad => do some (.integer (← readInteger unSigned 8 memory), 64)
  | float =>
    if 4 ≤ memory.length then
      some (.double (ieee.unpack32 (getu32 memory)), 32)
    else none
  | double =>
    if 8 ≤ memory.length then
      some (.double (ieee.unpack64 (getu64 memory)), 64)
    else none

def vunmarshalLoop (ieee : Ieee754 Double) (memory : List UInt8) (len : Nat) :
    List Directive → Nat → Bool → List (Value Double) → Option (Int × List (Value Double))
  | [], _, _, values => some (values.length, values)
  | ⟨sign, some (.specifier specifier)⟩ :: rest, cnt, unSigned, values => do
      let unSigned := sign.getD unSigned
      let (value, inc) ← specifier.read ieee unSigned (memory.drop cnt)
      if len = cnt + inc then
        some ((values ++ [value]).length, values ++ [value])
      else if len < cnt + inc then some (-1, values ++ [value])
      else
        vunmarshalLoop ieee memory len rest (cnt + inc) unSigned (values ++ [value])
  | _ :: _, _, _, values => some (-1, values)

/-- `vunmarshal` on the memory from `buf` on: what it returns, and the values that
it has assigned. -/
def vunmarshal (ieee : Ieee754 Double) (memory : List UInt8) (len : Nat)
    (format : List UInt8) : Option (Int × List (Value Double)) :=
  if len < 1 then some (0, [])
  else vunmarshalLoop ieee memory len (directives format) 0 true []

end Read

end MercuryFix
