import MercuryFix.MarshalFormats
import Mathlib.Data.Int.ModEq

/-!
# Marshalling and unmarshalling

The three loops agree on how far an argument goes, so a buffer of the size that
`vmarshal_size` returns is filled exactly, and `vunmarshal` finds each value where
`vmarshal` put it.
-/

namespace MercuryFix

open ByteBlock

variable {Double : Type} {ieee : Ieee754 Double}

section Data

theorem patch_datum (ieee : Ieee754 Double) (datum : Datum) :
    datum.specifier.patch ieee datum.arg = some datum.patch := by
  cases datum with
  | string unSigned text => rfl
  | integer unSigned kind value => cases kind <;> rfl

theorem size_datum (datum : Datum) :
    datum.specifier.size (datum.arg : Arg Double) = some datum.patch.span := by
  cases datum with
  | string unSigned text => rfl
  | integer unSigned kind value => cases kind <;> rfl

theorem directives_formatOf (data : List Datum) : directives (formatOf data) = data.map fun datum =>
      ⟨some datum.unSigned, some (.specifier datum.specifier)⟩ := by
  have items := directives_text (data.map fun datum =>
    FormatItem.directive datum.unSigned datum.specifier)
  rw [List.flatMap_map, List.map_map] at items
  exact items

theorem spanOf_patchesFor_cons (datum : Datum) (data : List Datum) :
    spanOf (patchesFor (datum :: data)) = datum.patch.span + spanOf (patchesFor data) :=
  spanOf_cons _ _

theorem nil_of_span {data : List Datum} (zero : spanOf (patchesFor data) = 0) : data = [] := by
  cases data with
  | nil => rfl
  | cons datum data =>
    have positive := span_pos (patch_datum ⟨id, id, id, id⟩ datum)
    rw [spanOf_patchesFor_cons] at zero
    omega

theorem vmarshalSizeLoop_data (data : List Datum) (retv : Nat) :
    vmarshalSizeLoop (directives (formatOf data)) (argsOf data : List (Arg Double))
        (retv % 2 ^ 32) =
      some ((retv + spanOf (patchesFor data)) % 2 ^ 32) := by
  rw [directives_formatOf]
  induction data generalizing retv with
  | nil => rfl
  | cons datum data induction =>
    have step := induction (retv + datum.patch.span)
    rw [Nat.add_assoc, ← spanOf_patchesFor_cons] at step
    rw [← step, List.map_cons, argsOf, List.map_cons, vmarshalSizeLoop]
    simp only [size_datum, Option.bind_eq_bind, Option.bind_some, Nat.mod_add_mod]
    rfl

theorem vmarshalSize_data (data : List Datum) :
    vmarshalSize (formatOf data) (argsOf data : List (Arg Double)) =
      some (spanOf (patchesFor data) % 2 ^ 32) := by
  rw [vmarshalSize, ← Nat.zero_add (spanOf (patchesFor data))]
  exact vmarshalSizeLoop_data data 0

theorem vmarshalLoop_data (ieee : Ieee754 Double) {data : List Datum}
    {len count : Nat} {buf : List UInt8} (some_ : data ≠ [])
    (room : len ≤ buf.length)
    (exactFit : len = count + spanOf (patchesFor data)) :
    ∃ next, vmarshalLoop ieee len (directives (formatOf data)) (argsOf data) buf
      count = some ⟨true, len, next⟩ := by
  rw [directives_formatOf]
  induction data generalizing buf count with
  | nil => exact absurd rfl some_
  | cons datum data induction =>
    rw [spanOf_patchesFor_cons] at exactFit
    obtain ⟨next, copies, length, -⟩ :=
      memcpy_patch (show count + datum.patch.span ≤ buf.length by omega)
    rw [List.map_cons, argsOf, List.map_cons,
      vmarshalLoop_of_patch (patch_datum ieee datum) (by omega) copies]
    by_cases last : spanOf (patchesFor data) = 0
    · rw [nil_of_span last, if_pos (by omega)]
      exact ⟨next, by rw [exactFit, last]; rfl⟩
    · rw [if_neg (by omega)]
      refine induction ?_ (by omega) (by omega)
      rintro rfl
      exact last rfl

theorem patchesOf_data (ieee : Ieee754 Double) (data : List Datum) :
    patchesOf ieee (directives (formatOf data)) (argsOf data) = some (patchesFor data) := by
  rw [directives_formatOf]
  induction data with
  | nil => rfl
  | cons datum data induction =>
    rw [List.map_cons, argsOf, List.map_cons, patchesOf, patch_datum ieee datum]
    simp only [Option.bind_eq_bind, Option.bind_some]
    rw [← argsOf, induction]
    rfl

theorem vmarshal_data (ieee : Ieee754 Double) {data : List Datum} {len : Nat}
    {buf : List UInt8} (some_ : data ≠ []) (room : len ≤ buf.length)
    (exactFit : len = spanOf (patchesFor data)) :
    vmarshal ieee buf len (formatOf data) (argsOf data) =
      some ⟨true, len, overlay (patchesFor data) buf ++ buf.drop len⟩ := by
  have positive : len ≠ 0 := fun zero =>
    some_ (nil_of_span (exactFit.symm.trans zero))
  obtain ⟨next, returns⟩ := vmarshalLoop_data ieee some_ room (exactFit.trans (Nat.zero_add _).symm)
  obtain ⟨patches, found, -, -, bufEq⟩ := vmarshalLoop_laid room (Nat.zero_le _) returns rfl
  cases (patchesOf_data ieee data).symm.trans found
  rw [vmarshal, if_neg positive, returns]
  simp only [List.take_zero, List.nil_append, List.drop_zero, Nat.zero_add, ← exactFit] at bufEq
  rw [bufEq]

theorem count_of_vmarshal {ieee : Ieee754 Double} {data : List Datum}
    {len : Nat} {buf : List UInt8} {marshalled : Marshalled} (room : len ≤ buf.length)
    (returns : vmarshal ieee buf len (formatOf data) (argsOf data) =
      some marshalled) (done : marshalled.done = true) :
    marshalled.count = spanOf (patchesFor data) := by
  rw [vmarshal] at returns
  split at returns
  · cases returns
    cases done
  · obtain ⟨patches, found, countEq, -, -⟩ := vmarshalLoop_laid room (Nat.zero_le _) returns done
    cases (patchesOf_data ieee data).symm.trans found
    rw [countEq, Nat.zero_add]

end Data

section Read

theorem readInteger_integerBytes (unSigned : Bool) (width : Nat) (value : Int) (rest : List UInt8) :
    readInteger unSigned width (integerBytes width value ++ rest) =
      some (if unSigned then value % 256 ^ width
        else value.bmod (256 ^ width)) := by
  have length := length_integerBytes width value
  have positive : (0 : Int) < 256 ^ width := by positivity
  have small : (value % 256 ^ width).toNat < 256 ^ width := by
    have bound := Int.emod_lt_of_pos value positive
    have lower := Int.emod_nonneg value positive.ne'
    zify
    rw [Int.toNat_of_nonneg lower]
    exact bound
  have number : ofBigEndian (integerBytes width value) = (value % 256 ^ width).toNat := by
    rw [integerBytes, ofBigEndian_bigEndian, Nat.mod_eq_of_lt small]
  have cast : ((value % 256 ^ width).toNat : Int) = value % 256 ^ width :=
    Int.toNat_of_nonneg (Int.emod_nonneg value positive.ne')
  rw [readInteger, if_pos (by rw [List.length_append]; omega), List.take_left' length, number]
  dsimp only
  rw [cast]
  cases unSigned with
  | true => rfl
  | false =>
    have modulus : ((256 ^ width : Nat) : Int) = 256 ^ width := by push_cast; rfl
    simp only [Bool.false_eq_true, ↓reduceIte]
    rw [← modulus, Int.emod_bmod]

theorem read_datum (ieee : Ieee754 Double) {datum : Datum}
    (proper : datum.Proper) (rest : List UInt8) :
    datum.specifier.read ieee datum.unSigned (datum.patch.cells ++ rest) =
      some (datum.value, datum.patch.span) := by
  cases datum with
  | string unSigned text =>
    have noNul : (0 : UInt8) ∉ text := proper
    have same : cString text = text := cString_eq_self noNul
    have cells : (Datum.string unSigned text).patch.cells ++ rest = text ++ 0 :: rest := by
      simp [Datum.patch, same]
    rw [cells]
    simp [Datum.specifier, Specifier.read, Datum.value, Datum.patch, same, cString_of_noNul noNul]
  | integer unSigned kind value =>
    cases kind <;> simp only [Datum.specifier, IntegerKind.specifier, Specifier.read,
        Datum.patch, Datum.unSigned, IntegerKind.width, Datum.value,
        readInteger_integerBytes, Option.bind_eq_bind, Option.bind_some]

theorem vunmarshalLoop_data (ieee : Ieee754 Double) {data : List Datum}
    {memory old rest : List UInt8} {len cnt : Nat} (proper : ∀ datum ∈ data, datum.Proper)
    (room : spanOf (patchesFor data) ≤ old.length)
    (content : memory.drop cnt = overlay (patchesFor data) old ++ rest)
    (exactFit : len = cnt + spanOf (patchesFor data)) (unSigned : Bool)
    (values : List (Value Double)) :
    vunmarshalLoop ieee memory len (directives (formatOf data)) cnt unSigned values =
      some (((values ++ data.map Datum.value).length : Int), values ++ data.map Datum.value) := by
  rw [directives_formatOf]
  induction data generalizing old cnt unSigned values with
  | nil => simp [vunmarshalLoop]
  | cons datum data induction =>
    rw [spanOf_patchesFor_cons] at room exactFit
    have fits := datum.patch.fits
    have here : memory.drop cnt = datum.patch.cells ++
        ((old.take datum.patch.span).drop datum.patch.cells.length ++
          (overlay (patchesFor data) (old.drop datum.patch.span) ++ rest)) := by
      rw [content, patchesFor, List.map_cons, overlay]
      simp only [List.append_assoc, patchesFor]
    have later : memory.drop (cnt + datum.patch.span) =
        overlay (patchesFor data) (old.drop datum.patch.span) ++ rest := by
      have width : (datum.patch.cells ++
          (old.take datum.patch.span).drop datum.patch.cells.length).length = datum.patch.span := by
        rw [List.length_append, List.length_drop, List.length_take]
        omega
      rw [← List.drop_drop, here, ← List.append_assoc, List.drop_left' width]
    have reads := read_datum ieee (proper datum List.mem_cons_self)
      ((old.take datum.patch.span).drop datum.patch.cells.length ++
        (overlay (patchesFor data) (old.drop datum.patch.span) ++ rest))
    rw [← here] at reads
    rw [List.map_cons, vunmarshalLoop]
    simp only [Option.getD_some, reads, Option.bind_eq_bind, Option.bind_some]
    by_cases last : spanOf (patchesFor data) = 0
    · rw [if_pos (by omega), nil_of_span last]
      rfl
    · rw [if_neg (by omega), if_neg (by omega), induction (fun other member =>
          proper other (List.mem_cons_of_mem _ member))
          (by rw [List.length_drop]; omega) later (by omega)]
      simp

end Read

end MercuryFix
