import MercuryFix.DecimalText
import Mathlib.Algebra.BigOperators.Group.List.Basic
import Mathlib.Tactic.Ring

/-!
# Checksums and fixed-width numbers

The checksum of a message and the two ways the program writes it: the sender's
zero-padded writer and the receiver's `%03u`.
-/

namespace MercuryFix

open DecimalText

/-- `get_FIX_checksum`, with its 64-bit running sum. -/
def getFIXChecksum (msg : List UInt8) : Nat :=
  msg.foldl (fun sum byte => (sum + byte.toNat) % 2 ^ 64) 0 % 256

/-- The digit loop of `uint_to_str_zero_padded`: fill `cells` cells from the
right and return what is left of the value. -/
def zeroPaddedLoop : Nat → Nat → List UInt8 → List UInt8 × Nat
  | 0, value, written => (written, value)
  | cells + 1, value, written =>
    zeroPaddedLoop cells (value / 10) (digitByte (value % 10) :: written)

/-- `uint_to_str_zero_padded`: the bytes it leaves at `*str` and its result. -/
def uintToStrZeroPadded (available : Nat) (terminator : UInt8) (value : Nat) :
    List UInt8 × Nat :=
  if available = 0 then ([], 1)
  else
    let filled := zeroPaddedLoop (available - 1) value [terminator]
    (filled.1, if filled.2 = 0 then 0 else 1)

/-- `sprintf` with the format `%03u`. -/
def sprintf03u (value : Nat) : List UInt8 :=
  if value < 1000 then zeroPadded 3 value else render value

theorem foldl_sum_mod (msg : List UInt8) (start : Nat) :
    msg.foldl (fun sum byte => (sum + byte.toNat) % 2 ^ 64) start % 256 =
      (start + (msg.map UInt8.toNat).sum) % 256 := by
  induction msg generalizing start with
  | nil => simp
  | cons byte msg induction =>
    rw [List.foldl_cons, induction, List.map_cons, List.sum_cons]
    omega

/-- The 64-bit sum never shows: the checksum is the plain byte sum modulo
256. -/
theorem getFIXChecksum_eq_sum (msg : List UInt8) :
    getFIXChecksum msg = (msg.map UInt8.toNat).sum % 256 := by
  rw [getFIXChecksum, foldl_sum_mod, Nat.zero_add]

theorem getFIXChecksum_lt (msg : List UInt8) : getFIXChecksum msg < 256 := Nat.mod_lt _ (by omega)

theorem zeroPaddedLoop_eq (cells value : Nat) (written : List UInt8) :
    zeroPaddedLoop cells value written =
      (zeroPadded cells value ++ written, value / 10 ^ cells) := by
  induction cells generalizing value written with
  | zero => simp [zeroPaddedLoop, zeroPadded]
  | succ cells induction =>
    rw [zeroPaddedLoop, induction, zeroPadded, pow_succ, mul_comm, ← Nat.div_div_eq_div_mul]
    simp

theorem uintToStrZeroPadded_checksum (terminator : UInt8) {checksum : Nat}
    (small : checksum < 256) :
    uintToStrZeroPadded 4 terminator checksum = (sprintf03u checksum ++ [terminator], 0) := by
  have below : checksum < 1000 := by omega
  simp [uintToStrZeroPadded, zeroPaddedLoop_eq, sprintf03u, below]

theorem length_sprintf03u {checksum : Nat} (small : checksum < 256) :
    (sprintf03u checksum).length = 3 := by
  have below : checksum < 1000 := by omega
  simp [sprintf03u, below]

end MercuryFix
