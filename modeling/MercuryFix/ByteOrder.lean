import MercuryFix.FixPushBuffer
import Mathlib.Tactic.IntervalCases

/-!
# The two builds of the byte order

`primitives.h` has two implementations of `setu16`, `setu32`, `setu64` and of their
inverses.  Both take a value apart with shifts, which do not depend on the host, but
they put the bytes in opposite orders.
-/

namespace MercuryFix

namespace LittleEndianBuild

def setu64 (val : UInt64) : Vector UInt8 8 :=
  #v[((val &&& 0xFF00000000000000) >>> 56).toUInt8,
    ((val &&& 0x00FF000000000000) >>> 48).toUInt8,
    ((val &&& 0x0000FF0000000000) >>> 40).toUInt8,
    ((val &&& 0x000000FF00000000) >>> 32).toUInt8,
    ((val &&& 0x00000000FF000000) >>> 24).toUInt8,
    ((val &&& 0x0000000000FF0000) >>> 16).toUInt8,
    ((val &&& 0x000000000000FF00) >>> 8).toUInt8,
    (val &&& 0x00000000000000FF).toUInt8]

def getu64 (buf : Vector UInt8 8) : UInt64 :=
  (0 : UInt64) ||| buf[0].toUInt64 <<< 56 ||| buf[1].toUInt64 <<< 48 |||
    buf[2].toUInt64 <<< 40 ||| buf[3].toUInt64 <<< 32 |||
    buf[4].toUInt64 <<< 24 ||| buf[5].toUInt64 <<< 16 |||
    buf[6].toUInt64 <<< 8 ||| buf[7].toUInt64

def setu32 (val : UInt32) : Vector UInt8 4 :=
  #v[((val &&& 0xFF000000) >>> 24).toUInt8, ((val &&& 0x00FF0000) >>> 16).toUInt8,
    ((val &&& 0x0000FF00) >>> 8).toUInt8, (val &&& 0x000000FF).toUInt8]

def getu32 (buf : Vector UInt8 4) : UInt32 :=
  buf[0].toUInt32 <<< 24 ||| buf[1].toUInt32 <<< 16 ||| buf[2].toUInt32 <<< 8 ||| buf[3].toUInt32

def setu16 (val : UInt16) : Vector UInt8 2 :=
  #v[((val &&& 0xFF00) >>> 8).toUInt8, (val &&& 0x00FF).toUInt8]

def getu16 (buf : Vector UInt8 2) : UInt16 := buf[0].toUInt16 <<< 8 ||| buf[1].toUInt16

end LittleEndianBuild

namespace BigEndianBuild

def setu64 (val : UInt64) : Vector UInt8 8 :=
  #v[(val &&& 0x00000000000000FF).toUInt8,
    ((val &&& 0x000000000000FF00) >>> 8).toUInt8,
    ((val &&& 0x0000000000FF0000) >>> 16).toUInt8,
    ((val &&& 0x00000000FF000000) >>> 24).toUInt8,
    ((val &&& 0x000000FF00000000) >>> 32).toUInt8,
    ((val &&& 0x0000FF0000000000) >>> 40).toUInt8,
    ((val &&& 0x00FF000000000000) >>> 48).toUInt8,
    ((val &&& 0xFF00000000000000) >>> 56).toUInt8]

def getu64 (buf : Vector UInt8 8) : UInt64 :=
  (0 : UInt64) ||| buf[7].toUInt64 <<< 56 ||| buf[6].toUInt64 <<< 48 |||
    buf[5].toUInt64 <<< 40 ||| buf[4].toUInt64 <<< 32 |||
    buf[3].toUInt64 <<< 24 ||| buf[2].toUInt64 <<< 16 |||
    buf[1].toUInt64 <<< 8 ||| buf[0].toUInt64

def setu32 (val : UInt32) : Vector UInt8 4 :=
  #v[(val &&& 0x000000FF).toUInt8, ((val &&& 0x0000FF00) >>> 8).toUInt8,
    ((val &&& 0x00FF0000) >>> 16).toUInt8, ((val &&& 0xFF000000) >>> 24).toUInt8]

def getu32 (buf : Vector UInt8 4) : UInt32 :=
  buf[3].toUInt32 <<< 24 ||| buf[2].toUInt32 <<< 16 ||| buf[1].toUInt32 <<< 8 ||| buf[0].toUInt32

def setu16 (val : UInt16) : Vector UInt8 2 :=
  #v[(val &&& 0x00FF).toUInt8, ((val &&& 0xFF00) >>> 8).toUInt8]

def getu16 (buf : Vector UInt8 2) : UInt16 := buf[1].toUInt16 <<< 8 ||| buf[0].toUInt16

end BigEndianBuild

section Bytes

theorem masked_byte (number k : Nat) :
    (number &&& 255 <<< k) >>> k % 256 = number / 2 ^ k % 256 := by
  rw [Nat.shiftRight_and_distrib, Nat.shiftLeft_shiftRight,
    Nat.shiftRight_eq_div_pow, Nat.and_two_pow_sub_one_eq_mod _ 8]
  exact Nat.mod_mod _ _

theorem or_shifted_byte {number byte i k : Nat} (small : byte < 256) (place : i = k + 8) :
    number <<< i ||| byte <<< k = (number * 256 + byte) <<< k := by
  rw [place, Nat.add_comm k 8, Nat.shiftLeft_add, ← Nat.shiftLeft_or_distrib,
    ← Nat.shiftLeft_add_eq_or_of_lt (i := 8) small, Nat.shiftLeft_eq number 8]

theorem or_last_byte {number byte : Nat} (small : byte < 256) :
    number <<< 8 ||| byte = number * 256 + byte := by
  simpa using or_shifted_byte (k := 0) small rfl

theorem toUInt8_masked64 {val mask shift : UInt64} (k : Nat)
    (bound : shift.toNat < 64) (covers : mask.toNat = 255 <<< shift.toNat)
    (place : 2 ^ shift.toNat = 256 ^ k) :
    ((val &&& mask) >>> shift).toUInt8 = UInt8.ofNat (val.toNat / 256 ^ k) := by
  apply UInt8.toNat_inj.mp
  rw [UInt64.toNat_toUInt8, UInt64.toNat_shiftRight, UInt64.toNat_and,
    Nat.mod_eq_of_lt bound, covers, UInt8.toNat_ofNat', ← place]
  exact masked_byte _ _

theorem toUInt8_low64 (val : UInt64) :
    (val &&& 0xFF).toUInt8 = UInt8.ofNat (val.toNat / 256 ^ 0) := by
  have masked : ((val &&& 0xFF) >>> 0).toUInt8 = UInt8.ofNat (val.toNat / 256 ^ 0) :=
    toUInt8_masked64 0 (by decide) (by decide) (by decide)
  rwa [UInt64.shiftRight_zero] at masked

theorem toUInt8_masked32 {val mask shift : UInt32} (k : Nat)
    (bound : shift.toNat < 32) (covers : mask.toNat = 255 <<< shift.toNat)
    (place : 2 ^ shift.toNat = 256 ^ k) :
    ((val &&& mask) >>> shift).toUInt8 = UInt8.ofNat (val.toNat / 256 ^ k) := by
  apply UInt8.toNat_inj.mp
  rw [UInt32.toNat_toUInt8, UInt32.toNat_shiftRight, UInt32.toNat_and,
    Nat.mod_eq_of_lt bound, covers, UInt8.toNat_ofNat', ← place]
  exact masked_byte _ _

theorem toUInt8_low32 (val : UInt32) :
    (val &&& 0xFF).toUInt8 = UInt8.ofNat (val.toNat / 256 ^ 0) := by
  have masked : ((val &&& 0xFF) >>> 0).toUInt8 = UInt8.ofNat (val.toNat / 256 ^ 0) :=
    toUInt8_masked32 0 (by decide) (by decide) (by decide)
  rwa [UInt32.shiftRight_zero] at masked

theorem toUInt8_masked16 {val mask shift : UInt16} (k : Nat)
    (bound : shift.toNat < 16) (covers : mask.toNat = 255 <<< shift.toNat)
    (place : 2 ^ shift.toNat = 256 ^ k) :
    ((val &&& mask) >>> shift).toUInt8 = UInt8.ofNat (val.toNat / 256 ^ k) := by
  apply UInt8.toNat_inj.mp
  rw [UInt16.toNat_toUInt8, UInt16.toNat_shiftRight, UInt16.toNat_and,
    Nat.mod_eq_of_lt bound, covers, UInt8.toNat_ofNat', ← place]
  exact masked_byte _ _

theorem toUInt8_low16 (val : UInt16) :
    (val &&& 0xFF).toUInt8 = UInt8.ofNat (val.toNat / 256 ^ 0) := by
  have masked : ((val &&& 0xFF) >>> 0).toUInt8 = UInt8.ofNat (val.toNat / 256 ^ 0) :=
    toUInt8_masked16 0 (by decide) (by decide) (by decide)
  rwa [UInt16.shiftRight_zero] at masked

theorem shifted_byte_lt {byte : UInt8} {k width : Nat} (bound : 8 + k ≤ width) :
    byte.toNat <<< k < 2 ^ width := by
  rw [Nat.shiftLeft_eq]
  calc byte.toNat * 2 ^ k < 2 ^ 8 * 2 ^ k :=
        Nat.mul_lt_mul_of_pos_right byte.toNat_lt (Nat.two_pow_pos k)
    _ = 2 ^ (8 + k) := (Nat.pow_add 2 8 k).symm
    _ ≤ 2 ^ width := Nat.pow_le_pow_right (by decide) bound

theorem toNat_shifted64 {byte : UInt8} {shift : UInt64} (k : Nat)
    (place : shift.toNat = k) (bound : k ≤ 56) :
    (byte.toUInt64 <<< shift).toNat = byte.toNat <<< k := by
  have fits : byte.toNat <<< k < 2 ^ 64 := shifted_byte_lt (by omega)
  rw [UInt64.toNat_shiftLeft, place, Nat.mod_eq_of_lt (by omega : k < 64),
    UInt8.toNat_toUInt64, Nat.mod_eq_of_lt fits]

theorem toNat_shifted32 {byte : UInt8} {shift : UInt32} (k : Nat)
    (place : shift.toNat = k) (bound : k ≤ 24) :
    (byte.toUInt32 <<< shift).toNat = byte.toNat <<< k := by
  have fits : byte.toNat <<< k < 2 ^ 32 := shifted_byte_lt (by omega)
  rw [UInt32.toNat_shiftLeft, place, Nat.mod_eq_of_lt (by omega : k < 32),
    UInt8.toNat_toUInt32, Nat.mod_eq_of_lt fits]

theorem toNat_shifted16 {byte : UInt8} {shift : UInt16} (k : Nat)
    (place : shift.toNat = k) (bound : k ≤ 8) :
    (byte.toUInt16 <<< shift).toNat = byte.toNat <<< k := by
  have fits : byte.toNat <<< k < 2 ^ 16 := shifted_byte_lt (by omega)
  rw [UInt16.toNat_shiftLeft, place, Nat.mod_eq_of_lt (by omega : k < 16),
    UInt8.toNat_toUInt16, Nat.mod_eq_of_lt fits]

theorem foldl_ofBigEndian (bytes : List UInt8) (start : Nat) :
    bytes.foldl (fun number byte => number * 256 + byte.toNat) start =
      start * 256 ^ bytes.length + ofBigEndian bytes := by
  unfold ofBigEndian
  induction bytes generalizing start with
  | nil => simp
  | cons byte bytes induction =>
    rw [List.foldl_cons, induction, List.foldl_cons, induction (0 * 256 + _),
      List.length_cons, pow_succ]
    ring

theorem ofBigEndian_lt (bytes : List UInt8) : ofBigEndian bytes < 256 ^ bytes.length := by
  induction bytes with
  | nil => decide
  | cons byte bytes induction =>
    have small : byte.toNat < 256 := byte.toNat_lt
    rw [ofBigEndian, List.foldl_cons, foldl_ofBigEndian, List.length_cons, pow_succ]
    nlinarith

theorem bigEndian_add (width above number : Nat) :
    bigEndian width (above * 256 ^ width + number) = bigEndian width number := by
  induction width generalizing above with
  | zero => rfl
  | succ width induction =>
    have positive : 0 < 256 ^ width := Nat.pow_pos (by decide)
    have regroup : above * 256 ^ (width + 1) + number = above * 256 * 256 ^ width + number := by
      rw [pow_succ]
      ring
    rw [bigEndian, bigEndian, regroup, induction]
    congr 1
    apply UInt8.toNat_inj.mp
    rw [Nat.add_comm, Nat.add_mul_div_right _ _ positive, UInt8.toNat_ofNat',
      UInt8.toNat_ofNat', Nat.add_mul_mod_self_right]

theorem bigEndian_ofBigEndian (bytes : List UInt8) :
    bigEndian bytes.length (ofBigEndian bytes) = bytes := by
  induction bytes with
  | nil => rfl
  | cons byte bytes induction =>
    have value : ofBigEndian (byte :: bytes) =
        byte.toNat * 256 ^ bytes.length + ofBigEndian bytes := by
      rw [ofBigEndian, List.foldl_cons, foldl_ofBigEndian]
      simp
    have positive : 0 < 256 ^ bytes.length := Nat.pow_pos (by decide)
    rw [List.length_cons, bigEndian, value, bigEndian_add, induction, Nat.add_comm,
      Nat.add_mul_div_right _ _ positive, Nat.div_eq_of_lt (ofBigEndian_lt bytes)]
    simp

theorem getElem_bigEndian {width number i : Nat} (inside : i < (bigEndian width number).length) :
    (bigEndian width number)[i] = UInt8.ofNat (number / 256 ^ (width - 1 - i)) := by
  induction width generalizing i with
  | zero => cases inside
  | succ width induction =>
    cases i with
    | zero => rfl
    | succ i =>
      rw [length_bigEndian] at inside
      have place : width + 1 - 1 - (i + 1) = width - 1 - i := by omega
      rw [place]
      exact induction (by rw [length_bigEndian]; omega)

/-- The digits of a number to the base 256 read the same in both directions. -/
def Mirrored (width number : Nat) : Prop :=
  ∀ i < width, number / 256 ^ i % 256 = number / 256 ^ (width - 1 - i) % 256

theorem reverse_bigEndian_iff (width number : Nat) :
    (bigEndian width number).reverse = bigEndian width number ↔ Mirrored width number := by
  have digit (i : Nat) (inside : i < width) :
      ((bigEndian width number).reverse[i]? = (bigEndian width number)[i]?) ↔
        number / 256 ^ i % 256 = number / 256 ^ (width - 1 - i) % 256 := by
    have mirror : width - 1 - (width - 1 - i) = i := by omega
    rw [List.getElem?_reverse (by simpa using inside), length_bigEndian,
      List.getElem?_eq_getElem (by rw [length_bigEndian]; omega),
      List.getElem?_eq_getElem (by rwa [length_bigEndian]), getElem_bigEndian,
      getElem_bigEndian, mirror, Option.some.injEq, ← UInt8.toNat_inj,
      UInt8.toNat_ofNat', UInt8.toNat_ofNat']
  constructor
  · intro same i inside
    rw [← digit i inside, same]
  · intro mirrored
    refine List.ext_getElem? fun i => ?_
    by_cases inside : i < width
    · exact (digit i inside).mpr (mirrored i inside)
    · rw [List.getElem?_eq_none (by simpa using inside),
        List.getElem?_eq_none (by simpa using inside)]

end Bytes

/-! This build has the most significant byte first. -/

namespace LittleEndianBuild

theorem toList_setu64 (val : UInt64) : (setu64 val).toList = bigEndian 8 val.toNat := by
  simp only [setu64, Vector.toList_mk, bigEndian]
  rw [toUInt8_masked64 7 (by decide) (by decide) (by decide),
    toUInt8_masked64 6 (by decide) (by decide) (by decide),
    toUInt8_masked64 5 (by decide) (by decide) (by decide),
    toUInt8_masked64 4 (by decide) (by decide) (by decide),
    toUInt8_masked64 3 (by decide) (by decide) (by decide),
    toUInt8_masked64 2 (by decide) (by decide) (by decide),
    toUInt8_masked64 1 (by decide) (by decide) (by decide),
    toUInt8_low64]

theorem toList_setu32 (val : UInt32) : (setu32 val).toList = bigEndian 4 val.toNat := by
  simp only [setu32, Vector.toList_mk, bigEndian]
  rw [toUInt8_masked32 3 (by decide) (by decide) (by decide),
    toUInt8_masked32 2 (by decide) (by decide) (by decide),
    toUInt8_masked32 1 (by decide) (by decide) (by decide),
    toUInt8_low32]

theorem toList_setu16 (val : UInt16) : (setu16 val).toList = bigEndian 2 val.toNat := by
  simp only [setu16, Vector.toList_mk, bigEndian]
  rw [toUInt8_masked16 1 (by decide) (by decide) (by decide), toUInt8_low16]

theorem toNat_getu64 (buf : Vector UInt8 8) : (getu64 buf).toNat = ofBigEndian buf.toList := by
  have small (byte : UInt8) : byte.toNat < 256 := byte.toNat_lt
  have bytes : buf.toList = [buf[0], buf[1], buf[2], buf[3], buf[4], buf[5], buf[6], buf[7]] := by
    refine List.ext_getElem (by simp) fun i inside _ => ?_
    rw [Vector.length_toList] at inside
    interval_cases i <;> rfl
  simp only [getu64, UInt64.toNat_or, UInt8.toNat_toUInt64]
  rw [toNat_shifted64 56 rfl (by decide), toNat_shifted64 48 rfl (by decide),
    toNat_shifted64 40 rfl (by decide), toNat_shifted64 32 rfl (by decide),
    toNat_shifted64 24 rfl (by decide), toNat_shifted64 16 rfl (by decide),
    toNat_shifted64 8 rfl (by decide), bytes]
  rw [show UInt64.toNat 0 = 0 from rfl, Nat.zero_or, or_shifted_byte (small _) rfl,
    or_shifted_byte (small _) rfl, or_shifted_byte (small _) rfl, or_shifted_byte (small _) rfl,
    or_shifted_byte (small _) rfl, or_shifted_byte (small _) rfl, or_last_byte (small _)]
  simp [ofBigEndian]

theorem toNat_getu32 (buf : Vector UInt8 4) : (getu32 buf).toNat = ofBigEndian buf.toList := by
  have small (byte : UInt8) : byte.toNat < 256 := byte.toNat_lt
  have bytes : buf.toList = [buf[0], buf[1], buf[2], buf[3]] := by
    refine List.ext_getElem (by simp) fun i inside _ => ?_
    rw [Vector.length_toList] at inside
    interval_cases i <;> rfl
  simp only [getu32, UInt32.toNat_or, UInt8.toNat_toUInt32]
  rw [toNat_shifted32 24 rfl (by decide), toNat_shifted32 16 rfl (by decide),
    toNat_shifted32 8 rfl (by decide), bytes, or_shifted_byte (small _) rfl,
    or_shifted_byte (small _) rfl, or_last_byte (small _)]
  simp [ofBigEndian]

theorem toNat_getu16 (buf : Vector UInt8 2) : (getu16 buf).toNat = ofBigEndian buf.toList := by
  have small (byte : UInt8) : byte.toNat < 256 := byte.toNat_lt
  have bytes : buf.toList = [buf[0], buf[1]] := by
    refine List.ext_getElem (by simp) fun i inside _ => ?_
    rw [Vector.length_toList] at inside
    interval_cases i <;> rfl
  simp only [getu16, UInt16.toNat_or, UInt8.toNat_toUInt16]
  rw [toNat_shifted16 8 rfl (by decide), bytes, or_last_byte (small _)]
  simp [ofBigEndian]

end LittleEndianBuild

section Messages

/-- The bytes of the queues and of the network are those of this build. -/
theorem setu32_eq (number : Nat) :
    setu32 number = (LittleEndianBuild.setu32 (UInt32.ofNat number)).toList := by
  rw [LittleEndianBuild.toList_setu32, UInt32.toNat_ofNat', setu32]
  nth_rewrite 1 [← Nat.div_add_mod' number (2 ^ 32)]
  exact bigEndian_add 4 _ _

theorem setu64_eq (number : Nat) :
    setu64 number = (LittleEndianBuild.setu64 (UInt64.ofNat number)).toList := by
  rw [LittleEndianBuild.toList_setu64, UInt64.toNat_ofNat', setu64]
  nth_rewrite 1 [← Nat.div_add_mod' number (2 ^ 64)]
  exact bigEndian_add 8 _ _

end Messages

namespace BigEndianBuild

theorem setu64_eq_reverse (val : UInt64) : setu64 val = (LittleEndianBuild.setu64 val).reverse := by
  simp [setu64, LittleEndianBuild.setu64]

theorem setu32_eq_reverse (val : UInt32) : setu32 val = (LittleEndianBuild.setu32 val).reverse := by
  simp [setu32, LittleEndianBuild.setu32]

theorem setu16_eq_reverse (val : UInt16) : setu16 val = (LittleEndianBuild.setu16 val).reverse := by
  simp [setu16, LittleEndianBuild.setu16]

theorem getu64_eq_reverse (buf : Vector UInt8 8) :
    getu64 buf = LittleEndianBuild.getu64 buf.reverse := by
  simp [getu64, LittleEndianBuild.getu64]

theorem getu32_eq_reverse (buf : Vector UInt8 4) :
    getu32 buf = LittleEndianBuild.getu32 buf.reverse := by
  simp [getu32, LittleEndianBuild.getu32]

theorem getu16_eq_reverse (buf : Vector UInt8 2) :
    getu16 buf = LittleEndianBuild.getu16 buf.reverse := by
  simp [getu16, LittleEndianBuild.getu16]

end BigEndianBuild

theorem ofBigEndian_reverse_iff {width number : Nat} (small : number < 256 ^ width) :
    ofBigEndian (bigEndian width number).reverse = number ↔ Mirrored width number := by
  rw [← reverse_bigEndian_iff]
  constructor
  · intro same
    have bytes := bigEndian_ofBigEndian (bigEndian width number).reverse
    rw [List.length_reverse, length_bigEndian, same] at bytes
    exact bytes.symm
  · intro same
    rw [same, ofBigEndian_bigEndian, Nat.mod_eq_of_lt small]

theorem reversed_iff {Val : Type} {width : Nat} {toNat : Val → Nat} {val : Val}
    {stored : Vector UInt8 width} {get : Vector UInt8 width → Val}
    (injective : Function.Injective toNat) (reads : ∀ buf, toNat (get buf) = ofBigEndian buf.toList)
    (bytes : stored.toList = bigEndian width (toNat val))
    (small : toNat val < 256 ^ width) :
    (stored.reverse = stored ↔ Mirrored width (toNat val)) ∧
      (get stored.reverse = val ↔ Mirrored width (toNat val)) := by
  constructor
  · rw [← Vector.toList_inj, Vector.toList_reverse, bytes, reverse_bigEndian_iff]
  · rw [← injective.eq_iff, reads, Vector.toList_reverse, bytes]
    exact ofBigEndian_reverse_iff small

/-- The two builds store the same bytes, and read each other's values, exactly for
the values whose bytes are mirrored. -/
theorem builds_agree_iff (word : UInt16) (long : UInt32) (quad : UInt64) :
    ((BigEndianBuild.setu16 word = LittleEndianBuild.setu16 word ↔
        Mirrored 2 word.toNat) ∧
      (LittleEndianBuild.getu16 (BigEndianBuild.setu16 word) = word ↔
        Mirrored 2 word.toNat) ∧
      (BigEndianBuild.getu16 (LittleEndianBuild.setu16 word) = word ↔
        Mirrored 2 word.toNat)) ∧
    ((BigEndianBuild.setu32 long = LittleEndianBuild.setu32 long ↔
        Mirrored 4 long.toNat) ∧
      (LittleEndianBuild.getu32 (BigEndianBuild.setu32 long) = long ↔
        Mirrored 4 long.toNat) ∧
      (BigEndianBuild.getu32 (LittleEndianBuild.setu32 long) = long ↔
        Mirrored 4 long.toNat)) ∧
    (BigEndianBuild.setu64 quad = LittleEndianBuild.setu64 quad ↔
        Mirrored 8 quad.toNat) ∧
    (LittleEndianBuild.getu64 (BigEndianBuild.setu64 quad) = quad ↔
        Mirrored 8 quad.toNat) ∧
    (BigEndianBuild.getu64 (LittleEndianBuild.setu64 quad) = quad ↔
        Mirrored 8 quad.toNat) := by
  refine ⟨?_, ?_, ?_⟩
  · rw [BigEndianBuild.setu16_eq_reverse, BigEndianBuild.getu16_eq_reverse]
    obtain ⟨same, read⟩ := reversed_iff (fun _ _ => UInt16.toNat_inj.mp)
      LittleEndianBuild.toNat_getu16 (LittleEndianBuild.toList_setu16 word)
      word.toNat_lt
    exact ⟨same, read, read⟩
  · rw [BigEndianBuild.setu32_eq_reverse, BigEndianBuild.getu32_eq_reverse]
    obtain ⟨same, read⟩ := reversed_iff (fun _ _ => UInt32.toNat_inj.mp)
      LittleEndianBuild.toNat_getu32 (LittleEndianBuild.toList_setu32 long)
      long.toNat_lt
    exact ⟨same, read, read⟩
  · rw [BigEndianBuild.setu64_eq_reverse, BigEndianBuild.getu64_eq_reverse]
    obtain ⟨same, read⟩ := reversed_iff (fun _ _ => UInt64.toNat_inj.mp)
      LittleEndianBuild.toNat_getu64 (LittleEndianBuild.toList_setu64 quad)
      quad.toNat_lt
    exact ⟨same, read, read⟩

/-- One is stored with its byte at opposite ends. -/
theorem builds_disagree :
    LittleEndianBuild.setu16 1 = #v[0, 1] ∧
      BigEndianBuild.setu16 1 = #v[1, 0] ∧
      LittleEndianBuild.getu16 (BigEndianBuild.setu16 1) = 0x100 ∧
      LittleEndianBuild.setu32 1 = #v[0, 0, 0, 1] ∧
      BigEndianBuild.setu32 1 = #v[1, 0, 0, 0] ∧
      LittleEndianBuild.getu32 (BigEndianBuild.setu32 1) = 0x1000000 ∧
      LittleEndianBuild.setu64 1 = #v[0, 0, 0, 0, 0, 0, 0, 1] ∧
      BigEndianBuild.setu64 1 = #v[1, 0, 0, 0, 0, 0, 0, 0] ∧
      LittleEndianBuild.getu64 (BigEndianBuild.setu64 1) =
        0x100000000000000 := by
  decide

end MercuryFix
