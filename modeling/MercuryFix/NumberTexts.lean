import MercuryFix.FieldTraversal
import MercuryFix.FixFields
import MercuryFix.FixMessageCompletion

/-!
# Numbers as texts

The functions that write numbers into messages and read them back, here with what the
other modules leave out: `uint_to_str_zero_padded` in its block of memory with its two
counters, and the signed arithmetic of `get_fix_tag` and `get_fix_length_value`.
-/

namespace MercuryFix

open DecimalText ByteBlock

section ZeroPadded

/-- The loop of `uint_to_str_zero_padded` at `pos`: the block, and the quotient that is
left, or none if the loop returns. -/
def zeroPaddedWrites (str available : Nat) :
    Nat → Nat → Nat → List UInt8 → Option (List UInt8 × Option Nat)
  | 0, used, value, block =>
    if 0 = str then some (block, some value)
    else if used < available then none
    else some (block, none)
  | pos + 1, used, value, block =>
    if pos + 1 = str then some (block, some value)
    else if used < available then do
      let written ← memcpy block pos [digitByte (value % 10)]
      zeroPaddedWrites str available pos (used + 1) (value / 10) written
    else some (block, none)

/-- `uint_to_str_zero_padded` at the place `str` of a block: the block, the new place
and the result. -/
def uintToStrZeroPaddedAt (block : List UInt8) (str available : Nat)
    (terminator : UInt8) (value : Nat) : Option (List UInt8 × Nat × Nat) :=
  if available = 0 then some (block, str, 1)
  else do
    let pos := str + available - 1
    let closed ← memcpy block pos [terminator]
    let (written, left) ← zeroPaddedWrites str available pos 1 value closed
    if left = some 0 then some (written, str + (available - 1), 0)
    else some (written, str, 1)

theorem zeroPaddedWrites_eq {str available cells used : Nat} (value : Nat)
    {block : List UInt8} (counts : used + cells = available) (room : str + cells ≤ block.length) :
    zeroPaddedWrites str available (str + cells) used value block =
      some (blit block str (zeroPadded cells value), some (value / 10 ^ cells)) := by
  induction cells generalizing used value block with
  | zero =>
    cases str with
    | zero => simp [zeroPaddedWrites, zeroPadded]
    | succ str => simp [zeroPaddedWrites, zeroPadded]
  | succ cells induction =>
    have writes : memcpy block (str + cells) [digitByte (value % 10)] =
        some (blit block (str + cells) [digitByte (value % 10)]) :=
      memcpy_of_fits (by rw [List.length_singleton]; omega)
    have length : (blit block (str + cells) [digitByte (value % 10)]).length = block.length :=
      length_blit (by rw [List.length_singleton]; omega)
    have joins : blit (blit block (str + cells) [digitByte (value % 10)]) str
        (zeroPadded cells (value / 10)) = blit block str (zeroPadded (cells + 1) value) := by
      have front : blit (blit block (str + (zeroPadded cells (value / 10)).length)
          [digitByte (value % 10)]) str (zeroPadded cells (value / 10)) = _ :=
        blit_blit_front (by rw [length_zeroPadded]; omega)
      rwa [length_zeroPadded] at front
    rw [← Nat.add_assoc, zeroPaddedWrites, if_neg (by omega), if_pos (by omega),
      writes, Option.bind_eq_bind, Option.bind_some,
      induction (value / 10) (by omega) (by omega), joins, Nat.div_div_eq_div_mul,
      pow_succ']

theorem div_pow_eq_zero_iff {value cells : Nat} : value / 10 ^ cells = 0 ↔ value < 10 ^ cells := by
  have power : 0 < 10 ^ cells := Nat.pow_pos (by omega)
  rw [Nat.div_eq_zero_iff]
  omega

theorem uintToStrZeroPaddedAt_eq {block : List UInt8} {str available : Nat}
    (positive : 1 ≤ available) (room : str + available ≤ block.length)
    (terminator : UInt8) (value : Nat) :
    uintToStrZeroPaddedAt block str available terminator value =
      some (blit block str (zeroPadded (available - 1) value ++ [terminator]),
        if value < 10 ^ (available - 1) then (str + (available - 1), 0)
        else (str, 1)) := by
  obtain ⟨cells, rfl⟩ : ∃ cells, available = cells + 1 := ⟨available - 1, by omega⟩
  have closes : memcpy block (str + cells) [terminator] =
      some (blit block (str + cells) [terminator]) :=
    memcpy_of_fits (by rw [List.length_singleton]; omega)
  have length : (blit block (str + cells) [terminator]).length = block.length :=
    length_blit (by rw [List.length_singleton]; omega)
  have joins : blit (blit block (str + cells) [terminator]) str
      (zeroPadded cells value) = blit block str (zeroPadded cells value ++ [terminator]) := by
    have front : blit (blit block (str + (zeroPadded cells value).length) [terminator])
        str (zeroPadded cells value) = _ :=
      blit_blit_front (by rw [length_zeroPadded]; omega)
    rwa [length_zeroPadded] at front
  have writes : zeroPaddedWrites str (cells + 1) (str + cells) 1 value
      (blit block (str + cells) [terminator]) =
        some (blit block str (zeroPadded cells value ++ [terminator]),
          some (value / 10 ^ cells)) := by
    rw [zeroPaddedWrites_eq value (Nat.add_comm 1 cells) (by omega), joins]
  rw [uintToStrZeroPaddedAt, if_neg (by omega), ← Nat.add_assoc, Nat.add_sub_cancel,
    Nat.add_sub_cancel]
  simp only [closes, writes, Option.bind_eq_bind, Option.bind_some,
    Option.some.injEq, div_pow_eq_zero_iff]
  split
  · rfl
  · rfl

theorem uintToStrZeroPaddedAt_bytes {block : List UInt8} {str available : Nat}
    (positive : 1 ≤ available) (room : str + available ≤ block.length)
    (terminator : UInt8) (value : Nat) :
    (uintToStrZeroPaddedAt block str available terminator value).map
        (fun result => (result.1, result.2.2)) =
      some (blit block str (uintToStrZeroPadded available terminator value).1,
        (uintToStrZeroPadded available terminator value).2) := by
  have some_available : available ≠ 0 := by omega
  rw [uintToStrZeroPaddedAt_eq positive room, uintToStrZeroPadded, if_neg some_available]
  simp only [zeroPaddedLoop_eq, div_pow_eq_zero_iff, Option.map_some]
  split
  · rfl
  · rfl

end ZeroPadded

/-- The result says whether the number fits, and then the bytes are its zero-padded
text and the terminator.  Nothing else in the block is changed in either case. -/
theorem uintToStrZeroPaddedAt_exact (block : List UInt8) (str available : Nat)
    (positive : 1 ≤ available) (room : str + available ≤ block.length)
    (terminator : UInt8) (value : Nat) :
    ∃ text, text.length = available - 1 ∧
      uintToStrZeroPaddedAt block str available terminator value =
        some (blit block str (text ++ [terminator]),
          if value < 10 ^ (available - 1) then (str + (available - 1), 0)
          else (str, 1)) ∧
      (value < 10 ^ (available - 1) →
        (∀ byte ∈ text, isDigit byte = true) ∧ DecimalText.value text = value) :=
  ⟨zeroPadded (available - 1) value, length_zeroPadded _ _,
    uintToStrZeroPaddedAt_eq positive room terminator value, fun small =>
      ⟨fun _ member => isDigit_of_mem_zeroPadded member, value_zeroPadded small⟩⟩

/-- The number seven in three digits, and a number that does not fit. -/
theorem uintToStrZeroPaddedAt_exact_seven :
    uintToStrZeroPaddedAt [65, 66, 67, 68, 69, 70] 1 4 1 7 =
      some ([65, 48, 48, 55, 1, 70], 4, 0) ∧
    ∃ text, text.length = 3 ∧
      uintToStrZeroPaddedAt [65, 66, 67, 68, 69, 70] 1 4 1 1000 =
        some (blit [65, 66, 67, 68, 69, 70] 1 (text ++ [1]), 1, 1) := by
  refine ⟨by decide, ?_⟩
  obtain ⟨text, length, writes, -⟩ := uintToStrZeroPaddedAt_exact
    [65, 66, 67, 68, 69, 70] 1 4 (by decide) (by decide) 1 1000
  exact ⟨text, length, writes⟩

section Signed

/-- How a parser fails to return: it reads beyond its text, or its arithmetic
overflows. -/
inductive NumberFault
  | beyond
  | overflow
  deriving DecidableEq

/-- The result of an operation on signed integers. -/
def signedResult (bits : Nat) (result : Int) : Except NumberFault Int :=
  if -(2 ^ (bits - 1)) ≤ result ∧ result < 2 ^ (bits - 1) then .ok result
  else .error .overflow

/-- The digit loop of both parsers.  The test for the terminator comes behind the first
digit. -/
def signedLoop (bits : Nat) (limit : Int) (stop : UInt8) :
    Int → List UInt8 → Except NumberFault (Int × List UInt8)
  | _, [] => .error .beyond
  | num, c :: rest =>
    if charValue c < 48 ∨ 57 < charValue c then .ok (-1, c :: rest)
    else if limit < num then .ok (-1, c :: rest)
    else do
      let product ← signedResult bits (10 * num)
      let digit ← signedResult 32 (charValue c - 48)
      let sum ← signedResult bits (product + digit)
      match rest with
      | [] => .error .beyond
      | next :: later =>
        if next = stop then .ok (sum, later)
        else signedLoop bits limit stop sum (next :: later)

/-- `get_fix_tag` with the arithmetic of `int`. -/
def getFixTagSigned (str : List UInt8) : Except NumberFault (Int × List UInt8) :=
  match str with
  | [] => .error .beyond
  | c :: rest =>
    if c = 61 ∨ c = 48 then .ok (-1, c :: rest)
    else signedLoop 32 maxTag 61 0 (c :: rest)

/-- `get_fix_length_value` with the arithmetic of `long long`. -/
def getFixLengthValueSigned (soh : UInt8) (str : List UInt8) :
    Except NumberFault Int :=
  (signedLoop 64 maxLength soh 0 str).map Prod.fst

variable {bits limit num : Nat} {stop : UInt8}

theorem charValue_not_digit_iff {c : UInt8} :
    charValue c < 48 ∨ 57 < charValue c ↔ isDigit c = false := by
  have bounded := c.toNat_lt
  rw [← Bool.not_eq_true, isDigit_iff]
  unfold charValue
  split <;> omega

theorem charValue_of_isDigit {c : UInt8} (digit : isDigit c = true) : charValue c = c.toNat := by
  have range := isDigit_iff.mp digit
  exact if_pos (by omega)

theorem signedResult_of_lt {result : Nat} (small : result < 2 ^ (bits - 1)) :
    signedResult bits result = .ok (result : Int) := by
  have bound : (result : Int) < 2 ^ (bits - 1) := by exact_mod_cast small
  exact if_pos ⟨by omega, bound⟩

theorem signedLoop_digit {c : UInt8} {rest : List UInt8}
    (wide : 10 * limit + 9 < 2 ^ (bits - 1)) (digit : isDigit c = true)
    (small : num ≤ limit) :
    signedLoop bits limit stop num (c :: rest) = match rest with
      | [] => .error .beyond
      | next :: later =>
        if next = stop then .ok ((10 * num + (c.toNat - 48) : Nat), later)
        else signedLoop bits limit stop (10 * num + (c.toNat - 48) : Nat) (next :: later) := by
  have range := isDigit_iff.mp digit
  have product : signedResult bits (10 * (num : Int)) = .ok ((10 * num : Nat) : Int) := by
    exact_mod_cast signedResult_of_lt (by omega)
  have character : signedResult 32 (charValue c - 48) = .ok ((c.toNat - 48 : Nat) : Int) := by
    have difference : charValue c - 48 = ((c.toNat - 48 : Nat) : Int) := by
      rw [charValue_of_isDigit digit]
      omega
    rw [difference]
    exact signedResult_of_lt (by omega)
  have sum : signedResult bits (((10 * num : Nat) : Int) + ((c.toNat - 48 : Nat) : Int)) =
      .ok ((10 * num + (c.toNat - 48) : Nat) : Int) := by
    exact_mod_cast signedResult_of_lt (by omega)
  conv_lhs => unfold signedLoop
  rw [if_neg (fun other => by simp [charValue_not_digit_iff.mp other] at digit),
    if_neg (by omega), product, character]
  simp only [bind, Except.bind, sum]

theorem signedLoop_eq_scan (wide : 10 * limit + 9 < 2 ^ (bits - 1)) (num : Nat)
    (text : List UInt8) :
    signedLoop bits limit stop num text = match scan limit stop num text with
      | .ranOut => .error .beyond
      | .refused rest => .ok (-1, rest)
      | .read number rest => .ok (number, rest) := by
  refine loop_eq_scan (fun num => signedLoop bits limit stop (num : Nat)) (fun
    | .ranOut => .error .beyond
    | .refused rest => .ok (-1, rest)
    | .read number rest => .ok (number, rest)) (fun _ => rfl) ?_
    (fun num c rest digit small => signedLoop_digit wide digit small) num text
  intro num c rest refuses
  dsimp only
  rw [signedLoop]
  by_cases other : isDigit c = false
  · exact if_pos (charValue_not_digit_iff.mpr other)
  · rw [if_neg (mt charValue_not_digit_iff.mp other),
      if_pos (by exact_mod_cast refuses.resolve_left other)]

theorem getFixTagSigned_eq (str : List UInt8) :
    getFixTagSigned str = (getFixTag str).elim (.error .beyond) .ok := by
  cases str with
  | nil => rfl
  | cons c rest =>
    rw [getFixTagSigned, getFixTag]
    split
    · rfl
    · have loop : signedLoop 32 maxTag 61 (0 : Nat) (c :: rest) = _ :=
        signedLoop_eq_scan (by decide) 0 (c :: rest)
      rw [getFixTagLoop_eq_scan, ← Nat.cast_zero, loop]
      cases scan maxTag 61 0 (c :: rest) <;> rfl

theorem getFixLengthValueSigned_eq_scan (soh : UInt8) (str : List UInt8) :
    getFixLengthValueSigned soh str = match scan maxLength soh 0 str with
      | .ranOut => .error .beyond
      | .refused _ => .ok (-1)
      | .read number _ => .ok (number : Int) := by
  have loop : signedLoop 64 maxLength soh (0 : Nat) str = _ := signedLoop_eq_scan (by decide) 0 str
  rw [getFixLengthValueSigned, ← Nat.cast_zero, loop]
  cases scan maxLength soh 0 str <;> rfl

theorem getFixLengthValueSigned_eq (soh : UInt8) (str : List UInt8) :
    getFixLengthValueSigned soh str = (getFixLengthValue soh str).elim (.error .beyond) .ok := by
  rw [getFixLengthValueSigned_eq_scan, getFixLengthValue, getFixLengthLoop_eq_scan]
  cases scan maxLength soh 0 str <;> rfl

theorem getFixTagSigned_ne_overflow (str : List UInt8) :
    getFixTagSigned str ≠ .error .overflow := by
  rw [getFixTagSigned_eq]
  cases getFixTag str <;> simp

theorem getFixLengthValueSigned_ne_overflow (soh : UInt8) (str : List UInt8) :
    getFixLengthValueSigned soh str ≠ .error .overflow := by
  rw [getFixLengthValueSigned_eq]
  cases getFixLengthValue soh str <;> simp

theorem getFixTagSigned_of_refused {str left : List UInt8}
    (refuses : scan maxTag 61 0 str = .refused left) :
    ∃ left, getFixTagSigned str = .ok (-1, left) := by
  cases str with
  | nil => cases refuses
  | cons c rest =>
    rw [getFixTagSigned_eq, getFixTag]
    split
    · exact ⟨_, rfl⟩
    · rw [getFixTagLoop_eq_scan, refuses]
      exact ⟨_, rfl⟩

theorem getFixTagSigned_render {v : Nat} (positive : 1 ≤ v) (small : v ≤ 2147483639)
    (rest : List UInt8) :
    getFixTagSigned (render v ++ 61 :: rest) = .ok ((v : Int), rest) := by
  rw [getFixTagSigned_eq, getFixTag_of_tagText (tagText_render positive small), value_render]
  rfl

theorem getFixTagSigned_render_refused {v : Nat}
    (outside : ¬ (1 ≤ v ∧ v ≤ 2147483639)) (rest : List UInt8) :
    ∃ left, getFixTagSigned (render v ++ 61 :: rest) = .ok (-1, left) := by
  by_cases zero : v = 0
  · subst zero
    exact ⟨_, rfl⟩
  have areDigits : ∀ byte ∈ render v, isDigit byte = true :=
    fun _ member => isDigit_of_mem_render member
  have closed : (61 : UInt8) ∉ (render v).tail := fun member =>
    absurd (areDigits 61 (List.mem_of_mem_tail member)) (by decide)
  have large : maxTag < valueFrom 0 (render v) / 10 := by
    rw [valueFrom_zero, value_render]
    unfold maxTag
    omega
  obtain ⟨left, refuses⟩ := scan_large (render_ne_nil v) areDigits closed large
  exact getFixTagSigned_of_refused refuses

theorem getFixLengthValueSigned_digits {soh : UInt8} {digits : List UInt8}
    (nonempty : digits ≠ []) (areDigits : ∀ byte ∈ digits, isDigit byte = true)
    (closed : soh ∉ digits.tail) (rest : List UInt8) :
    getFixLengthValueSigned soh (digits ++ soh :: rest) =
      .ok (if DecimalText.value digits ≤ 9223372036854775799
        then (DecimalText.value digits : Int) else -1) := by
  rw [getFixLengthValueSigned_eq_scan]
  split_ifs with small
  · have within : valueFrom 0 digits / 10 ≤ maxLength := by
      rw [valueFrom_zero]
      unfold maxLength
      omega
    rw [scan_digits nonempty areDigits closed within]
    rfl
  · have large : maxLength < valueFrom 0 digits / 10 := by
      rw [valueFrom_zero]
      unfold maxLength
      omega
    obtain ⟨left, refuses⟩ := scan_large nonempty areDigits closed large
    rw [refuses]

end Signed

/-- What is written is read back up to the limits of the parsers, and everything else
is refused.  A length is ended by the first delimiter behind its first byte. -/
theorem numberTexts_written_and_read (v : UInt64) (terminator soh : UInt8) :
    (∀ block str, str + (render v.toNat).length + 1 ≤ block.length →
      uintToStr block str terminator v.toNat =
        some (blit block str (render v.toNat ++ [terminator]),
          str + (render v.toNat).length)) ∧
    (render v.toNat).length = getDigitCount v.toNat ∧
    (∀ rest, 1 ≤ v.toNat ∧ v.toNat ≤ 2147483639 →
      getFixTagSigned (render v.toNat ++ 61 :: rest) = .ok ((v.toNat : Int), rest)) ∧
    (∀ rest, ¬ (1 ≤ v.toNat ∧ v.toNat ≤ 2147483639) →
      ∃ left, getFixTagSigned (render v.toNat ++ 61 :: rest) = .ok (-1, left)) ∧
    (∀ digits rest, digits ≠ [] → (∀ byte ∈ digits, isDigit byte = true) →
      soh ∉ digits.tail →
      getFixLengthValueSigned soh (digits ++ soh :: rest) =
        .ok (if DecimalText.value digits ≤ 9223372036854775799
          then (DecimalText.value digits : Int) else -1)) ∧
    (∀ front byte rest, isDigit byte = false → byte ≠ 61 → 61 ∉ front →
      ∃ left, getFixTagSigned (front ++ byte :: rest) = .ok (-1, left)) ∧
    (∀ front byte rest, isDigit byte = false → byte ≠ soh → soh ∉ front →
      getFixLengthValueSigned soh (front ++ byte :: rest) = .ok (-1)) ∧
    (∀ str, getFixTagSigned str ≠ .error .overflow) ∧
    (∀ str, getFixLengthValueSigned soh str ≠ .error .overflow) := by
  refine ⟨fun block str => uintToStr_eq, (getDigitCount_eq v.toNat_lt).symm,
    fun rest within => getFixTagSigned_render within.1 within.2 rest,
    fun rest outside => getFixTagSigned_render_refused outside rest,
    fun digits rest nonempty areDigits closed =>
      getFixLengthValueSigned_digits nonempty areDigits closed rest, ?_, ?_,
    getFixTagSigned_ne_overflow, getFixLengthValueSigned_ne_overflow soh⟩
  · intro front byte rest other notStop closed
    obtain ⟨left, refuses⟩ := scan_other other notStop closed
    exact getFixTagSigned_of_refused refuses
  · intro front byte rest other notStop closed
    obtain ⟨left, refuses⟩ := scan_other other notStop closed
    rw [getFixLengthValueSigned_eq_scan, refuses]

/-- The largest tag that is read back, and a padded length. -/
theorem numberTexts_written_and_read_largest :
    getFixTagSigned (render 2147483639 ++ [61, 65]) = .ok (2147483639, [65]) ∧
    getFixLengthValueSigned 1 [48, 48, 53, 1] = .ok 5 ∧
    ∃ left, getFixTagSigned (render 2147483640 ++ [61]) = .ok (-1, left) :=
  ⟨(numberTexts_written_and_read 2147483639 1 1).2.2.1 [65] (by decide),
    (numberTexts_written_and_read 0 1 1).2.2.2.2.1 [48, 48, 53] [] (by simp)
      (by simp [isDigit]) (by simp),
    (numberTexts_written_and_read 2147483640 1 1).2.2.2.1 [] (by decide)⟩

end MercuryFix
