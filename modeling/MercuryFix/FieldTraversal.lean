import MercuryFix.DecimalScans
import MercuryFix.FixMessageFields
import MercuryFix.FixMessageTX

/-!
# The fields of a well-formed message

`next_field` takes the end of an ordinary value from the next delimiter and that of a
data value from the field in front of it.  Over a well-formed body it yields every
field where it stands, whatever the data values hold.
-/

namespace MercuryFix

open DecimalText

section Numbers

theorem not_isDigit_iff {byte : UInt8} : isDigit byte = false ↔ byte < 48 ∨ 57 < byte := by
  simp only [isDigit, Bool.and_eq_false_iff, decide_eq_false_iff_not, UInt8.not_le]

theorem accumulated_eq {byte : UInt8} (digit : isDigit byte = true) (num : Nat) :
    (10 * num + (byte.toNat - 48) : Int) = ((10 * num + (byte.toNat - 48) : Nat) : Int) := by
  have range := isDigit_iff.mp digit
  omega

theorem getFixTagLoop_eq_scan (num : Nat) (text : List UInt8) : getFixTagLoop num text =
      match scan maxTag 61 num text with
      | .ranOut => none
      | .refused rest => some (-1, rest)
      | .read number rest => some (number, rest) := by
  refine loop_eq_scan getFixTagLoop (fun
    | .ranOut => none
    | .refused rest => some (-1, rest)
    | .read number rest => some (number, rest)) (fun _ => rfl) ?_ ?_ num text
  · intro num byte rest refuses
    unfold getFixTagLoop
    by_cases other : isDigit byte = false
    · exact if_pos (not_isDigit_iff.mp other)
    · rw [if_neg (mt not_isDigit_iff.mpr other), if_pos (refuses.resolve_left other)]
  · intro num byte rest digit small
    conv_lhs => unfold getFixTagLoop
    rw [if_neg (mt not_isDigit_iff.mpr (by simp [digit])), if_neg (by omega)]
    split
    · rfl
    · exact congrArg (fun tag => some (tag, _)) (accumulated_eq digit num)
    · rename_i next later other
      exact (if_neg other).symm

theorem getFixLengthLoop_eq_scan (soh : UInt8) (num : Nat) (text : List UInt8) :
    getFixLengthLoop soh num text = match scan maxLength soh num text with
      | .ranOut => none
      | .refused _ => some (-1)
      | .read number _ => some (number : Int) := by
  refine loop_eq_scan (getFixLengthLoop soh) (fun
    | .ranOut => none
    | .refused _ => some (-1)
    | .read number _ => some (number : Int)) (fun _ => rfl) ?_ ?_ num text
  · intro num byte rest refuses
    unfold getFixLengthLoop
    by_cases other : isDigit byte = false
    · exact if_pos (not_isDigit_iff.mp other)
    · rw [if_neg (mt not_isDigit_iff.mpr other), if_pos (refuses.resolve_left other)]
  · intro num byte rest digit small
    conv_lhs => unfold getFixLengthLoop
    rw [if_neg (mt not_isDigit_iff.mpr (by simp [digit])), if_neg (by omega)]
    cases rest with
    | nil => rfl
    | cons next later => simp only [accumulated_eq digit]

structure TagText (digits : List UInt8) : Prop where
  areDigits : ∀ byte ∈ digits, isDigit byte = true
  nonempty : digits ≠ []
  unpadded : digits.head? ≠ some 48
  bounded : value digits / 10 ≤ maxTag

theorem TagText.positive {digits : List UInt8} (text : TagText digits) : 0 < value digits := by
  cases digits with
  | nil => exact absurd rfl text.nonempty
  | cons byte digits =>
    apply value_pos_of_head (text.areDigits byte (by simp))
    rintro rfl
    exact text.unpadded rfl

theorem getFixTag_of_tagText {digits : List UInt8} (text : TagText digits) (rest : List UInt8) :
    getFixTag (digits ++ 61 :: rest) = some ((value digits : Int), rest) := by
  have closed : (61 : UInt8) ∉ digits := fun member =>
    absurd (text.areDigits 61 member) (by decide)
  have scanned : scan maxTag 61 0 (digits ++ 61 :: rest) = .read (value digits) rest :=
    scan_digits text.nonempty text.areDigits
      (fun member => closed (List.mem_of_mem_tail member)) text.bounded
  cases digits with
  | nil => exact absurd rfl text.nonempty
  | cons byte digits =>
    have first : ¬ (byte = 61 ∨ byte = 48) := by
      rintro (rfl | rfl)
      · exact closed (by simp)
      · exact text.unpadded rfl
    rw [List.cons_append] at scanned ⊢
    unfold getFixTag
    dsimp only
    rw [if_neg first, getFixTagLoop_eq_scan, scanned]

theorem head?_render {number : Nat} (positive : 0 < number) : (render number).head? ≠ some 48 := by
  induction number using Nat.strong_induction_on with
  | _ number induction =>
    rw [render_eq_if]
    split
    · rename_i small
      rw [List.head?_cons, ne_eq, Option.some.injEq]
      intro zero
      have digit := toNat_digitByte small
      rw [zero] at digit
      change 48 = 48 + number at digit
      omega
    · rename_i large
      rw [List.head?_append_of_ne_nil _ (render_ne_nil _)]
      exact induction (number / 10) (by omega) (by omega)

theorem tagText_render {tag : Nat} (positive : 1 ≤ tag) (small : tag ≤ 2147483639) :
    TagText (render tag) where
  areDigits := fun _ member => isDigit_of_mem_render member
  nonempty := render_ne_nil tag
  unpadded := head?_render positive
  bounded := by
    rw [value_render]
    unfold maxTag
    omega

structure SpellsLength (soh : UInt8) (text : List UInt8) (length : Nat) :
    Prop where
  areDigits : ∀ byte ∈ text, isDigit byte = true
  nonempty : text ≠ []
  closed : soh ∉ text
  spelled : value text = length

theorem SpellsLength.getFixLengthValue {soh : UInt8} {text : List UInt8}
    {length : Nat} (spells : SpellsLength soh text length)
    (small : length < 2 ^ 31) (rest : List UInt8) :
    getFixLengthValue soh (text ++ soh :: rest) = some (length : Int) := by
  have bounded : valueFrom 0 text / 10 ≤ maxLength := by
    rw [valueFrom_zero, spells.spelled]
    unfold maxLength
    omega
  have scanned : scan maxLength soh 0 (text ++ soh :: rest) = .read (valueFrom 0 text) rest :=
    scan_digits spells.nonempty spells.areDigits
      (fun member => spells.closed (List.mem_of_mem_tail member)) bounded
  rw [valueFrom_zero, spells.spelled] at scanned
  unfold MercuryFix.getFixLengthValue
  rw [getFixLengthLoop_eq_scan, scanned]

end Numbers

section Fields

structure Field where
  tag : Nat
  value : List UInt8

def Field.text (soh : UInt8) (field : Field) : List UInt8 := fieldText soh field.tag field.value

def fieldsText (soh : UInt8) (fields : List Field) : List UInt8 := fields.flatMap (Field.text soh)

/-- The fields are well formed behind a field with this value: a data value follows
its length, and no other value holds a delimiter. -/
def WellFormed (soh : UInt8) (dataTags : Nat → Bool) :
    List UInt8 → List Field → Prop
  | _, [] => True
  | previous, field :: rest =>
    (1 ≤ field.tag ∧ field.tag ≤ 2147483639 ∧ field.tag ≠ 10) ∧
    (if dataTags field.tag then
        field.value.length < 2 ^ 31 ∧ SpellsLength soh previous field.value.length
      else soh ∉ field.value) ∧
    WellFormed soh dataTags field.value rest

/-- What `next_field` yields for the fields in front of `tail`: the tags, the lengths
and the memory from each value on. -/
def fieldReads (soh : UInt8) (tail : List UInt8) :
    List Field → List (Int × Nat × List UInt8)
  | [] => []
  | field :: rest =>
    ((field.tag : Int), field.value.length,
      field.value ++ soh :: (fieldsText soh rest ++ tail)) ::
      fieldReads soh tail rest

variable {rx : FixMessageRX} {field : Field} {rest : List UInt8}

theorem getFixTag_field (valid : 1 ≤ field.tag ∧ field.tag ≤ 2147483639) :
    getFixTag (field.text rx.soh ++ rest) =
      some ((field.tag : Int), field.value ++ rx.soh :: rest) := by
  have text : field.text rx.soh ++ rest =
      render field.tag ++ 61 :: (field.value ++ rx.soh :: rest) := by
    simp [Field.text, fieldText]
  rw [text, getFixTag_of_tagText (tagText_render valid.1 valid.2), value_render]

def FixMessageRX.behind (rx : FixMessageRX) (field : Field) (rest : List UInt8) :
    FixMessageRX :=
  { rx with
    pos := some rest
    prevValue := some (field.value ++ rx.soh :: rest) }

def FixMessageRX.reads (rx : FixMessageRX) (field : Field) (rest : List UInt8) :
    FieldRead :=
  ⟨field.tag, field.value.length, field.value ++ rx.soh :: rest, rx.behind field rest⟩

theorem nextField_ordinary (plain : rx.soh.toNat < 128)
    (valid : 1 ≤ field.tag ∧ field.tag ≤ 2147483639 ∧ field.tag ≠ 10)
    (ordinary : rx.dataTags field.tag = false) (closed : rx.soh ∉ field.value)
    (here : rx.pos = some (field.text rx.soh ++ rest)) :
    rx.nextField = some (rx.reads field rest) := by
  have passed : ∀ byte ∈ field.value, (!charEqByte rx.soh byte) = true := by
    intro byte member
    rw [Bool.not_eq_true', ← Bool.not_eq_true, charEqByte_iff]
    rintro ⟨rfl, -⟩
    exact closed member
  have stops : (!charEqByte rx.soh rx.soh) = false := by
    rw [Bool.not_eq_false', charEqByte_iff]
    exact ⟨rfl, plain⟩
  have text : (field.value ++ rx.soh :: rest).takeWhile
      (fun byte => !charEqByte rx.soh byte) = field.value := by
    rw [List.takeWhile_append_of_pos passed, List.takeWhile_cons_of_neg (by simp [stops]),
      List.append_nil]
  unfold FixMessageRX.nextField
  rw [here]
  dsimp only
  rw [getFixTag_field ⟨valid.1, valid.2.1⟩]
  dsimp only
  rw [if_neg (by omega), if_neg (by omega), Int.toNat_natCast, ordinary,
    if_neg Bool.false_ne_true, text, if_pos (by simp), List.drop_append]
  simp [FixMessageRX.reads, FixMessageRX.behind]

theorem nextField_data {previous more : List UInt8}
    (valid : 1 ≤ field.tag ∧ field.tag ≤ 2147483639 ∧ field.tag ≠ 10)
    (data : rx.dataTags field.tag = true) (small : field.value.length < 2 ^ 31)
    (spells : SpellsLength rx.soh previous field.value.length)
    (before : rx.prevValue = some (previous ++ rx.soh :: more))
    (here : rx.pos = some (field.text rx.soh ++ rest)) :
    rx.nextField = some (rx.reads field rest) := by
  have length : (field.value.length : Int).bmod (2 ^ 32) = field.value.length := by
    rw [Int.bmod_def]
    omega
  unfold FixMessageRX.nextField
  rw [here]
  dsimp only
  rw [getFixTag_field ⟨valid.1, valid.2.1⟩]
  dsimp only
  rw [if_neg (by omega), if_neg (by omega), Int.toNat_natCast, if_pos data, before,
    Option.bind_some, spells.getFixLengthValue small]
  dsimp only
  rw [length, if_neg (by omega), Int.toNat_natCast, List.drop_append]
  simp [FixMessageRX.reads, FixMessageRX.behind]

theorem nextField_end (here : rx.pos = some (ascii ['1', '0', '='] ++ rest)) :
    rx.nextField = some ⟨0, 0, [], rx⟩ := by
  have tagged : getFixTag (ascii ['1', '0', '='] ++ rest) = some (10, rest) := by
    have text : TagText (render 10) := tagText_render (by omega) (by omega)
    have reads := getFixTag_of_tagText text rest
    rw [value_render] at reads
    have digits : render 10 = [49, 48] := by decide +kernel
    rw [digits] at reads
    exact reads
  unfold FixMessageRX.nextField
  rw [here]
  dsimp only
  rw [tagged]
  rfl

theorem WellFormed.nextField {previous : List UInt8} {fields : List Field}
    (plain : rx.soh.toNat < 128)
    (wellFormed : WellFormed rx.soh rx.dataTags previous (field :: fields))
    (before : rx.dataTags field.tag = true →
      ∃ more, rx.prevValue = some (previous ++ rx.soh :: more))
    (here : rx.pos = some (field.text rx.soh ++ rest)) :
    rx.nextField = some (rx.reads field rest) := by
  obtain ⟨valid, value, -⟩ := wellFormed
  cases data : rx.dataTags field.tag with
  | false =>
    rw [data, if_neg Bool.false_ne_true] at value
    exact nextField_ordinary plain valid data value here
  | true =>
    rw [data, if_pos rfl] at value
    obtain ⟨more, prevValue⟩ := before data
    exact nextField_data valid data value.1 value.2 prevValue here

theorem WellFormed.traverse {previous trailer : List UInt8}
    {fields : List Field} (plain : rx.soh.toNat < 128)
    (wellFormed : WellFormed rx.soh rx.dataTags previous fields)
    (before : ∀ field ∈ fields.head?, rx.dataTags field.tag = true →
      ∃ more, rx.prevValue = some (previous ++ rx.soh :: more))
    (here : rx.pos = some (fieldsText rx.soh fields ++ (ascii ['1', '0', '='] ++ trailer)))
    {rounds : Nat} (enough : fields.length < rounds) :
    rx.traverse rounds = some (fieldReads rx.soh (ascii ['1', '0', '='] ++ trailer) fields, 0) := by
  induction fields generalizing rx previous rounds with
  | nil =>
    obtain ⟨rounds, rfl⟩ : ∃ fewer, rounds = fewer + 1 := ⟨rounds - 1, by omega⟩
    rw [FixMessageRX.traverse, nextField_end here]
    rfl
  | cons field fields induction =>
    obtain ⟨rounds, rfl⟩ : ∃ fewer, rounds = fewer + 1 := ⟨rounds - 1, by omega⟩
    set tail := ascii ['1', '0', '='] ++ trailer
    have start : rx.pos = some (field.text rx.soh ++ (fieldsText rx.soh fields ++ tail)) := by
      rw [here, fieldsText, List.flatMap_cons, List.append_assoc]
      rfl
    have reads := wellFormed.nextField plain (before field rfl) start
    have stillPlain : (rx.behind field (fieldsText rx.soh fields ++ tail)).soh.toNat < 128 := plain
    have later := induction stillPlain wellFormed.2.2 (fun _ _ _ => ⟨_, rfl⟩) rfl
      (Nat.lt_of_succ_lt_succ enough)
    have positive : ¬ ((field.tag : Int) ≤ 0) := by
      have valid := wellFormed.1.1
      omega
    rw [FixMessageRX.traverse, reads, Option.bind_some, FixMessageRX.reads]
    dsimp only
    rw [if_neg positive, later]
    rfl

theorem dataTags_init (version : FixVersion) (soh : UInt8) :
    (FixMessageRX.init version soh).dataTags 35 = false ∧
      (FixMessageRX.init version soh).dataTags 34 = false := by
  cases version <;> exact ⟨rfl, rfl⟩

theorem WellFormed.typed {version : FixVersion} {soh : UInt8} {type : List UInt8}
    {fields : List Field} (wellFormed : WellFormed soh
      (FixMessageRX.init version soh).dataTags type fields) (typed : soh ∉ type) :
    WellFormed soh (FixMessageRX.init version soh).dataTags [] (⟨35, type⟩ :: fields) := by
  refine ⟨by simp, ?_, wellFormed⟩
  rw [(dataTags_init version soh).1, if_neg Bool.false_ne_true]
  exact typed

/-- Behind `imprint`, successive calls of `next_field` yield the MsgType and all
fields of a well-formed body and then 0. -/
theorem fields_enumerated (version : FixVersion) (soh : UInt8)
    (plain : soh.toNat < 128) (front type : List UInt8) (typed : soh ∉ type) (fields : List Field)
    (wellFormed : WellFormed soh (FixMessageRX.init version soh).dataTags type
      fields) (trailer : List UInt8) :
    ∃ rx, (FixMessageRX.init version soh).imprint (front.length + 3)
        (front ++ fieldsText soh (⟨35, type⟩ :: fields) ++
          (ascii ['1', '0', '='] ++ trailer)) = some rx ∧
      ∀ rounds, fields.length + 2 ≤ rounds → rx.traverse rounds =
        some (fieldReads soh (ascii ['1', '0', '='] ++ trailer)
          (⟨35, type⟩ :: fields), 0) := by
  refine ⟨_, rfl, ?_⟩
  intro rounds enough
  refine (wellFormed.typed typed).traverse plain ?_ ?_ enough
  · rintro field ⟨⟩ data
    rw [(dataTags_init version soh).1] at data
    cases data
  · change some _ = some _
    rw [Nat.add_sub_cancel, List.append_assoc, List.drop_left]
    rfl

def dataFields : List Field :=
  [⟨95, ascii ['0', '6']⟩, ⟨96, 1 :: ascii ['3', '4', '=', '7'] ++ [1]⟩]

theorem wellFormed_dataFields :
    WellFormed 1 (FixMessageRX.init .fix41 1).dataTags (ascii ['D']) dataFields := by
  refine ⟨by simp, ?_, by simp, ?_, trivial⟩
  · change (1 : UInt8) ∉ ascii ['0', '6']
    decide
  · exact ⟨by decide, by decide +kernel, by decide, by decide, by decide⟩

theorem fields_enumerated_data :
    ∃ rx, (FixMessageRX.init .fix41 1).imprint 3
        (fieldsText 1 (⟨35, ascii ['D']⟩ :: dataFields) ++
          ascii ['1', '0', '=']) = some rx ∧
      rx.traverse 4 = some (fieldReads 1 (ascii ['1', '0', '='])
        (⟨35, ascii ['D']⟩ :: dataFields), 0) := by
  obtain ⟨rx, imprinted, traversed⟩ := fields_enumerated .fix41 1 (by decide) []
    (ascii ['D']) (by decide) dataFields wellFormed_dataFields []
  exact ⟨rx, imprinted, traversed 4 (by decide)⟩

end Fields

end MercuryFix
