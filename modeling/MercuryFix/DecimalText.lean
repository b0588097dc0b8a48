import Mathlib.Data.List.Induction
import Mathlib.Tactic.Linarith
import Mathlib.Tactic.IntervalCases

/-!
# Unsigned decimal numbers as ASCII text

Text is a list of bytes.  `render` is the shortest decimal form of a number,
`zeroPadded` its last digits at a fixed width, and `value` reads any run of
digits back, leading zeros included.
-/

namespace DecimalText

def digitByte (digit : Nat) : UInt8 := UInt8.ofNat (48 + digit)

def isDigit (byte : UInt8) : Bool := 48 ≤ byte && byte ≤ 57

def value (text : List UInt8) : Nat :=
  text.foldl (fun number byte => 10 * number + (byte.toNat - 48)) 0

def render (number : Nat) : List UInt8 :=
  (Nat.toDigits 10 number).map fun character =>
    UInt8.ofNat character.toNat

def zeroPadded : Nat → Nat → List UInt8
  | 0, _ => []
  | width + 1, number =>
    zeroPadded width (number / 10) ++ [digitByte (number % 10)]

theorem isDigit_digitByte {digit : Nat} (small : digit < 10) :
    isDigit (digitByte digit) = true := by
  interval_cases digit <;> decide

theorem toNat_digitByte {digit : Nat} (small : digit < 10) :
    (digitByte digit).toNat = 48 + digit := by
  interval_cases digit <;> decide

theorem isDigit_iff {byte : UInt8} : isDigit byte = true ↔ 48 ≤ byte.toNat ∧ byte.toNat ≤ 57 := by
  simp [isDigit, UInt8.le_iff_toNat_le]

theorem digitChar_byte {digit : Nat} (small : digit < 10) :
    UInt8.ofNat (Nat.digitChar digit).toNat = digitByte digit := by
  interval_cases digit <;> decide

@[simp]
theorem value_nil : value [] = 0 := rfl

@[simp]
theorem value_concat (text : List UInt8) (byte : UInt8) :
    value (text ++ [byte]) = 10 * value text + (byte.toNat - 48) := by
  simp [value]

theorem render_eq_if (number : Nat) : render number = if number < 10 then [digitByte number]
      else render (number / 10) ++ [digitByte (number % 10)] := by
  unfold render
  rw [Nat.toDigits_eq_if (by omega)]
  split
  · rename_i small
    simp [digitChar_byte small]
  · simp [digitChar_byte (Nat.mod_lt number (by omega : 0 < 10))]

@[simp]
theorem value_render (number : Nat) : value (render number) = number := by
  induction number using Nat.strong_induction_on with
  | _ number induction =>
    rw [render_eq_if]
    split
    · rename_i small
      have single : value [digitByte number] = 10 * value [] + ((digitByte number).toNat - 48) :=
        value_concat [] _
      rw [single, toNat_digitByte small, value_nil]
      omega
    · rename_i large
      rw [value_concat, induction (number / 10) (by omega),
        toNat_digitByte (Nat.mod_lt _ (by omega))]
      omega

theorem isDigit_of_mem_render {number : Nat} {byte : UInt8}
    (member : byte ∈ render number) : isDigit byte = true := by
  induction number using Nat.strong_induction_on with
  | _ number induction =>
    rw [render_eq_if] at member
    split at member
    · rename_i small
      rw [List.mem_singleton.mp member]
      exact isDigit_digitByte small
    · rcases List.mem_append.mp member with earlier | last
      · exact induction (number / 10) (by omega) earlier
      · rw [List.mem_singleton.mp last]
        exact isDigit_digitByte (Nat.mod_lt _ (by omega))

theorem render_ne_nil (number : Nat) : render number ≠ [] := by
  simp [render, Nat.toDigits_ne_nil]

theorem length_render_pos (number : Nat) : 0 < (render number).length :=
  List.length_pos_iff.mpr (render_ne_nil number)

theorem length_render_le_iff {number width : Nat} (wide : 0 < width) :
    (render number).length ≤ width ↔ number < 10 ^ width := by
  simpa [render] using Nat.length_toDigits_le_iff (by omega) wide

theorem length_render_mono {first second : Nat} (ordered : first ≤ second) :
    (render first).length ≤ (render second).length := by
  have positive := length_render_pos second
  rw [length_render_le_iff positive]
  exact ordered.trans_lt ((length_render_le_iff positive).mp le_rfl)

@[simp]
theorem length_zeroPadded (width number : Nat) : (zeroPadded width number).length = width := by
  induction width generalizing number with
  | zero => rfl
  | succ width induction => simp [zeroPadded, induction]

theorem isDigit_of_mem_zeroPadded {width number : Nat} {byte : UInt8}
    (member : byte ∈ zeroPadded width number) : isDigit byte = true := by
  induction width generalizing number with
  | zero => cases member
  | succ width induction =>
    rcases List.mem_append.mp member with earlier | last
    · exact induction earlier
    · rw [List.mem_singleton.mp last]
      exact isDigit_digitByte (Nat.mod_lt _ (by omega))

theorem value_zeroPadded {width number : Nat} (small : number < 10 ^ width) :
    value (zeroPadded width number) = number := by
  induction width generalizing number with
  | zero =>
    rw [pow_zero, Nat.lt_one_iff] at small
    rw [small]
    rfl
  | succ width induction =>
    rw [pow_succ] at small
    rw [zeroPadded, value_concat, induction (by omega), toNat_digitByte (Nat.mod_lt _ (by omega))]
    omega

end DecimalText
