import MercuryFix.DelimitedSearch
import MercuryFix.FieldTraversal
import MercuryFix.SplitterDelivery

/-!
# Two readings of MsgSeqNum

`get_sequence_number` looks for the first MsgSeqNum tag behind a delimiter anywhere
in the bytes, `next_field` walks over the fields and jumps over data.  They agree
unless a data value in front of the field imitates it.
-/

namespace MercuryFix

open DecimalText ByteBlock

variable {version : FixVersion} {soh : UInt8} {name type : List UInt8}

section Segments

def Field.segment (field : Field) : List UInt8 := render field.tag ++ 61 :: field.value

theorem fieldsText_eq_closeSegments (fields : List Field) :
    fieldsText soh fields = closeSegments soh (fields.map Field.segment) := by
  induction fields with
  | nil => rfl
  | cons field fields induction =>
    rw [fieldsText, List.flatMap_cons, List.map_cons, closeSegments_cons]
    change field.text soh ++ fieldsText soh fields = _
    rw [induction]
    simp [Field.text, fieldText, Field.segment]

def beginText (soh : UInt8) (name : List UInt8) : List UInt8 :=
  ascii ['8', '='] ++ name ++ soh :: ascii ['9', '=']

def headerSegments (name digits type : List UInt8) : List (List UInt8) :=
  [ascii ['8', '='] ++ name, ascii ['9', '='] ++ digits, ascii ['3', '5', '='] ++ type]

structure IsDelimiter (soh : UInt8) : Prop where
  plain : soh.toNat < 128
  notDigit : isDigit soh = false
  notEquals : soh ≠ 61

theorem IsDelimiter.not_mem (delimiter : IsDelimiter soh) {text : List UInt8}
    (characters : ∀ byte ∈ text, isDigit byte = true ∨ byte = 61) : soh ∉ text := by
  intro member
  rcases characters soh member with digit | equals
  · rw [delimiter.notDigit] at digit
    cases digit
  · exact delimiter.notEquals equals

theorem IsDelimiter.not_mem_seqnumTag (delimiter : IsDelimiter soh) : soh ∉ ascii ['3', '4', '='] :=
  delimiter.not_mem (by decide +kernel)

theorem tag_of_starts {field : Field} (valid : 1 ≤ field.tag ∧ field.tag ≤ 2147483639)
    (starts : ascii ['3', '4', '='] <+: field.segment) : field.tag = 34 := by
  obtain ⟨rest, joined⟩ := starts
  have first := getFixTag_of_tagText (tagText_render valid.1 valid.2) field.value
  have second := getFixTag_of_tagText (tagText_render (by omega : 1 ≤ 34) (by omega)) rest
  rw [value_render] at first second
  have digits : render 34 ++ 61 :: rest = ascii ['3', '4', '='] ++ rest := by
    have text : render 34 = [51, 52] := by decide +kernel
    rw [text]
    rfl
  rw [digits, joined, Field.segment, first] at second
  simp only [Option.some.injEq, Prod.mk.injEq] at second
  omega

theorem WellFormed.of_mem {dataTags : Nat → Bool} {previous : List UInt8}
    {fields : List Field} (wellFormed : WellFormed soh dataTags previous fields) :
    ∀ field ∈ fields, (1 ≤ field.tag ∧ field.tag ≤ 2147483639) ∧
      (dataTags field.tag = false → soh ∉ field.value) := by
  induction fields generalizing previous with
  | nil => simp
  | cons first fields induction =>
    obtain ⟨valid, value, later⟩ := wellFormed
    intro field member
    rcases List.mem_cons.mp member with rfl | member
    · refine ⟨⟨valid.1, valid.2.1⟩, ?_⟩
      intro ordinary
      rwa [ordinary, if_neg Bool.false_ne_true] at value
    · exact induction later field member

def opening (soh : UInt8) (name digits type : List UInt8) (before : List Field) :
    List UInt8 :=
  closeSegments soh (headerSegments name digits type ++ before.map Field.segment)

variable {digits : List UInt8} {before after : List Field} {dataTags : Nat → Bool}

/-- The tag of MsgSeqNum occurs in front of its field only in data. -/
theorem imitation_of_infix (delimiter : IsDelimiter soh) (named : soh ∉ name)
    (areDigits : ∀ byte ∈ digits, isDigit byte = true) (typed : soh ∉ type)
    (wellFormed : WellFormed soh dataTags type before) (once : ∀ field ∈ before, field.tag ≠ 34)
    (occurs : seqnumTag soh <:+: opening soh name digits type before) :
    ∃ field ∈ before, dataTags field.tag = true ∧ seqnumTag soh <:+: field.value := by
  rcases segment_of_infix (by decide) delimiter.not_mem_seqnumTag occurs with
    ⟨segment, member, inside⟩ | ⟨segment, member, starts⟩
  · have held : soh ∈ segment := inside.subset (by simp)
    rcases List.mem_append.mp member with header | ofField
    · exfalso
      simp only [headerSegments, List.mem_cons, List.not_mem_nil, or_false] at header
      rcases header with rfl | rfl | rfl
      · rcases List.mem_append.mp held with tag | inName
        · exact delimiter.not_mem (by decide +kernel) tag
        · exact named inName
      · rcases List.mem_append.mp held with tag | inDigits
        · exact delimiter.not_mem (by decide +kernel) tag
        · exact delimiter.not_mem (fun byte member => Or.inl (areDigits byte member)) inDigits
      · rcases List.mem_append.mp held with tag | inType
        · exact delimiter.not_mem (by decide +kernel) tag
        · exact typed inType
    · obtain ⟨field, present, rfl⟩ := List.mem_map.mp ofField
      obtain ⟨-, ordinary⟩ := wellFormed.of_mem field present
      have tag : soh ∉ render field.tag ++ [61] := by
        apply delimiter.not_mem
        intro byte member
        rcases List.mem_append.mp member with digit | equals
        · exact Or.inl (isDigit_of_mem_render digit)
        · exact Or.inr (List.mem_singleton.mp equals)
      have inValue : seqnumTag soh <:+: field.value := by
        apply infix_of_skipped tag
        rwa [List.append_assoc]
      refine ⟨field, present, ?_, inValue⟩
      by_contra data
      have holds : soh ∈ field.value := inValue.subset List.mem_cons_self
      exact ordinary (by simpa using data) holds
  · exfalso
    simp only [headerSegments, List.cons_append, List.nil_append, List.tail_cons,
      List.mem_cons] at member
    rcases member with rfl | rfl | ofField
    · simp [ascii] at starts
    · simp [ascii] at starts
    · obtain ⟨field, present, rfl⟩ := List.mem_map.mp ofField
      exact once field present (tag_of_starts (wellFormed.of_mem field present).1 starts)

theorem infix_of_imitation {field : Field} (present : field ∈ before)
    (imitates : seqnumTag soh <:+: field.value) :
    seqnumTag soh <:+: opening soh name digits type before := by
  have inSegment : field.value <:+: field.segment :=
    ((List.suffix_cons 61 field.value).trans (List.suffix_append _ _)).isInfix
  have inOpening : field.segment <:+: opening soh name digits type before := by
    have member : field.segment ∈ headerSegments name digits type ++ before.map Field.segment :=
      List.mem_append_right _ (List.mem_map_of_mem present)
    exact (List.prefix_append _ [soh]).isInfix.trans
      (List.infix_of_mem_flatten (List.mem_map_of_mem member))
  exact imitates.trans (inSegment.trans inOpening)

theorem bytes_eq_opening {message : FixMessage soh} {text : List UInt8}
    (msgType : message.msgType = type)
    (fields : message.fields = fieldsText soh (before ++ ⟨34, text⟩ :: after)) :
    message.bytes (beginText soh name) = opening soh name message.digits type before ++
        (ascii ['3', '4', '='] ++ (text ++ soh :: (fieldsText soh after ++
          message.trailer (beginText soh name)))) := by
  have number : render 34 = ascii ['3', '4'] := by decide +kernel
  have split : fieldsText soh (before ++ ⟨34, text⟩ :: after) =
      closeSegments soh (before.map Field.segment) ++
        (ascii ['3', '4', '='] ++ (text ++ soh :: fieldsText soh after)) := by
    rw [fieldsText_eq_closeSegments, List.map_append, closeSegments_append, List.map_cons,
      closeSegments_cons, Field.segment, number, fieldsText_eq_closeSegments after]
    simp [ascii]
  rw [FixMessage.bytes, FixMessage.summed, FixMessage.body, msgType, fields, split,
    opening, closeSegments_append, beginText]
  simp [headerSegments, closeSegments]

end Segments

section Walk

variable {message : FixMessage soh} {fields before after : List Field}

def numberField (reads : List (Int × Nat × List UInt8)) : Option Nat :=
  (reads.find? fun read => read.1 == 34).map fun read =>
    value (read.2.2.take read.2.1)

theorem numberField_fieldReads {tail text : List UInt8} (once : ∀ field ∈ before, field.tag ≠ 34) :
    numberField (fieldReads soh tail (before ++ ⟨34, text⟩ :: after)) = some (value text) := by
  induction before with
  | nil => simp [numberField, fieldReads]
  | cons field before induction =>
    have other : ((field.tag : Int) == 34) = false := by
      have different := once field (by simp)
      rw [beq_eq_false_iff_ne]
      omega
    rw [List.cons_append, fieldReads, numberField, List.find?_cons]
    dsimp only
    rw [other]
    exact induction fun later member => once later (List.mem_cons_of_mem _ member)

theorem length_le_fieldsText (soh : UInt8) (fields : List Field) :
    fields.length ≤ (fieldsText soh fields).length := by
  induction fields with
  | nil => exact Nat.zero_le _
  | cons field fields induction =>
    rw [fieldsText, List.flatMap_cons, List.length_append, List.length_cons]
    change fields.length + 1 ≤ _ + (fieldsText soh fields).length
    have closed : 1 ≤ (field.text soh).length := by
      simp [Field.text, fieldText]
      omega
    omega

theorem drop_beginText : (message.bytes (beginText soh name)).drop
        ((beginText soh name).length + message.digits.length + 4 - 3) =
      message.body ++ message.trailer (beginText soh name) := by
  have width : (beginText soh name).length + message.digits.length + 4 - 3 =
      (beginText soh name ++ message.digits ++ [soh]).length := by
    simp
    omega
  have parts : message.bytes (beginText soh name) =
      (beginText soh name ++ message.digits ++ [soh]) ++
        (message.body ++ message.trailer (beginText soh name)) := by
    simp [FixMessage.bytes, FixMessage.summed]
  rw [width, parts, List.drop_left]

theorem traverse_message (name : List UInt8) (plain : soh.toNat < 128)
    (wellFormed : WellFormed soh (FixMessageRX.init version soh).dataTags
      message.msgType fields) (fieldsEq : message.fields = fieldsText soh fields) :
    ∃ rx, (FixMessageRX.init version soh).imprint
        ((beginText soh name).length + message.digits.length + 4)
        (message.bytes (beginText soh name)) = some rx ∧
      rx.traverse ((message.bytes (beginText soh name)).length + 1) =
        some (fieldReads soh (message.trailer (beginText soh name))
          (⟨35, message.msgType⟩ :: fields), 0) := by
  have body : message.body = fieldsText soh (⟨35, message.msgType⟩ :: fields) := by
    have tag : render 35 = ascii ['3', '5'] := by decide +kernel
    rw [FixMessage.body, fieldsEq, fieldsText_eq_closeSegments, fieldsText_eq_closeSegments,
      List.map_cons, closeSegments_cons, Field.segment, tag]
    simp [ascii]
  refine ⟨_, if_neg (by omega), ?_⟩
  refine (wellFormed.typed message.delimited).traverse plain ?_ ?_ ?_
  · rintro field ⟨⟩ data
    rw [(dataTags_init version soh).1] at data
    cases data
  · change some _ = some _
    rw [drop_beginText, body, FixMessage.trailer, List.append_assoc]
    rfl
  · have long := length_le_fieldsText soh (⟨35, message.msgType⟩ :: fields)
    rw [← body] at long
    have whole := message.length_bytes (beginText soh name)
    omega

end Walk

section Search

variable {front : List UInt8}

theorem takeWhile_stops {digit : UInt8 → Bool} {text rest : List UInt8}
    {stop : UInt8} (stops : ¬ digit stop = true) :
    (text ++ stop :: rest).takeWhile digit = text.takeWhile digit := by
  induction text with
  | nil => exact List.takeWhile_cons_of_neg stops
  | cons byte text induction =>
    rw [List.cons_append, List.takeWhile_cons, List.takeWhile_cons, induction]

theorem exists_behind_seqnumTag (delimiter : IsDelimiter soh) {start behind : List UInt8}
    (parts : front ++ [soh] = start ++ (seqnumTag soh ++ behind)) :
    ∃ text, behind = text ++ [soh] := by
  induction behind using List.reverseRecOn with
  | nil =>
    have shape : start ++ (seqnumTag soh ++ []) = (start ++ soh :: ascii ['3', '4']) ++ [61] := by
      simp [seqnumTag, ascii]
    rw [shape] at parts
    have last := (List.append_inj' parts rfl).2
    exact absurd (List.singleton_inj.mp last) delimiter.notEquals
  | append_singleton text last _ =>
    rw [← List.append_assoc, ← List.append_assoc] at parts
    have same := (List.append_inj' parts rfl).2
    exact ⟨text, by rw [List.singleton_inj.mp same]⟩

theorem getSequenceNumber_early (delimiter : IsDelimiter soh)
    (occurs : seqnumTag soh <:+: front ++ [soh]) :
    ∃ number, ∀ rest read,
      getSequenceNumber soh (front ++ [soh] ++ rest).length (front ++ [soh] ++ rest) =
        some read → read.seqnum = number := by
  obtain ⟨position, found⟩ := Option.isSome_iff_exists.mp (isSome_memmem_iff.mpr occurs)
  obtain ⟨behind, behindEq⟩ := occurs_of_memmem found
  have parts : front ++ [soh] = (front ++ [soh]).take position ++ (seqnumTag soh ++ behind) := by
    rw [behindEq, List.take_append_drop]
  obtain ⟨text, rfl⟩ := exists_behind_seqnumTag delimiter parts
  set digit : UInt8 → Bool := fun byte => soh != byte && isDigit byte
  set number := min (value (text.takeWhile digit)) (2 ^ 64 - 1)
  refine ⟨if number = 2 ^ 64 - 1 then 0 else number, ?_⟩
  intro rest read reads
  have tagLength : ((front ++ [soh]).take position ++ seqnumTag soh).length = position + 4 := by
    have inside := le_length_of_memmem found
    rw [List.length_append, List.length_take, Nat.min_eq_left inside]
    rfl
  have behindTag : (front ++ [soh] ++ rest).drop (position + 4) = text ++ soh :: rest := by
    rw [parts, ← List.append_assoc, List.append_assoc _ _ rest, ← tagLength,
      List.drop_left, List.append_assoc]
    rfl
  have scanned : ((front ++ [soh] ++ rest).drop (position + 4)).takeWhile digit =
      text.takeWhile digit := by
    rw [behindTag]
    exact takeWhile_stops (by simp [digit])
  have located : memmem (soh :: ascii ['3', '4', '=']) (front ++ [soh] ++ rest) =
      some position := memmem_append found rest
  unfold getSequenceNumber at reads
  rw [List.take_length, located] at reads
  dsimp only at reads
  split at reads
  · cases reads
    change (if min (value (((front ++ [soh] ++ rest).drop (position + 4)).takeWhile
      digit)) (2 ^ 64 - 1) = 2 ^ 64 - 1 then 0 else _) = _
    rw [scanned]
  · cases reads

end Search

section Agreement

variable {message : FixMessage soh} {before after : List Field} {number : Nat}

/-- `get_sequence_number` on the bytes of the message and `next_field` over its fields
come to the same number. -/
def ReadingsAgree (version : FixVersion) (name : List UInt8) (message : FixMessage soh) : Prop :=
  ∃ rx fields read,
    (FixMessageRX.init version soh).imprint
        ((beginText soh name).length + message.digits.length + 4)
        (message.bytes (beginText soh name)) = some rx ∧
      rx.traverse ((message.bytes (beginText soh name)).length + 1) = some (fields, 0) ∧
      getSequenceNumber soh (message.bytes (beginText soh name)).length
        (message.bytes (beginText soh name)) = some read ∧
      numberField fields = some read.seqnum

theorem carries_of_no_imitation (delimiter : IsDelimiter soh) (msgType : message.msgType = type)
    (fields : message.fields = fieldsText soh (before ++ ⟨34, render number⟩ :: after))
    (absent : ¬ seqnumTag soh <:+: opening soh name message.digits type before) :
    CarriesNumber soh (message.bytes (beginText soh name)) number := by
  obtain ⟨front, openingEq⟩ : ∃ front,
      opening soh name message.digits type before = front ++ [soh] :=
    closeSegments_eq_concat (by simp [headerSegments])
  have bytesEq : message.bytes (beginText soh name) =
      front ++ soh :: (ascii ['3', '4', '='] ++ (render number ++
        soh :: (fieldsText soh after ++ message.trailer (beginText soh name)))) := by
    rw [bytes_eq_opening msgType fields, openingEq, List.append_assoc]
    rfl
  have elsewhere : ¬ soh :: ascii ['3', '4', '='] <:+: front := by
    intro inside
    rw [openingEq] at absent
    exact absent (inside.trans (List.prefix_append _ _).isInfix)
  refine ⟨front, render number, fieldsText soh after ++
    message.trailer (beginText soh name), ?_, ?_, render_ne_nil number,
    fun _ member => isDigit_of_mem_render member, ?_, value_render number⟩
  · rw [bytesEq]
    simp [seqnumTag]
  · rw [bytesEq]
    exact memmem_behind delimiter.not_mem_seqnumTag elsewhere
  · exact delimiter.not_mem fun _ member => Or.inl (isDigit_of_mem_render member)

theorem readingsAgree_iff (plain : soh.toNat < 128)
    (wellFormed : WellFormed soh (FixMessageRX.init version soh).dataTags
      message.msgType (before ++ ⟨34, render number⟩ :: after))
    (once : ∀ field ∈ before, field.tag ≠ 34)
    (fields : message.fields = fieldsText soh (before ++ ⟨34, render number⟩ :: after)) :
    ReadingsAgree version name message ↔
      ∃ read, getSequenceNumber soh (message.bytes (beginText soh name)).length
        (message.bytes (beginText soh name)) = some read ∧ read.seqnum = number := by
  obtain ⟨rx, imprinted, traversed⟩ := traverse_message name plain wellFormed fields
  have found : numberField (fieldReads soh (message.trailer (beginText soh name))
      (⟨35, message.msgType⟩ :: (before ++ ⟨34, render number⟩ :: after))) = some number := by
    rw [← List.cons_append, numberField_fieldReads, value_render]
    intro field member
    rcases List.mem_cons.mp member with rfl | later
    · simp
    · exact once field later
  constructor
  · rintro ⟨other, reads, read, otherImprinted, otherTraversed, searched, same⟩
    rw [imprinted, Option.some.injEq] at otherImprinted
    subst otherImprinted
    rw [traversed, Option.some.injEq, Prod.mk.injEq] at otherTraversed
    rw [← otherTraversed.1, found, Option.some.injEq] at same
    exact ⟨read, searched, same.symm⟩
  · rintro ⟨read, searched, rfl⟩
    exact ⟨rx, _, read, imprinted, traversed, searched, found⟩

theorem WellFormed.concat {dataTags : Nat → Bool} {previous : List UInt8}
    {fields : List Field} {field : Field} (wellFormed : WellFormed soh dataTags previous fields)
    (valid : 1 ≤ field.tag ∧ field.tag ≤ 2147483639 ∧ field.tag ≠ 10)
    (ordinary : dataTags field.tag = false) (closed : soh ∉ field.value) :
    WellFormed soh dataTags previous (fields ++ [field]) := by
  induction fields generalizing previous with
  | nil =>
    refine ⟨valid, ?_, trivial⟩
    rw [ordinary, if_neg Bool.false_ne_true]
    exact closed
  | cons first fields induction =>
    exact ⟨wellFormed.1, wellFormed.2.1, induction wellFormed.2.2⟩

def messageOf (delimiter : IsDelimiter soh) (type : List UInt8) (typed : type ≠ [])
    (delimited : soh ∉ type) (fields : List UInt8)
    (ends : fields.getLast? = some soh) : FixMessage soh where
  digits := render (ascii ['3', '5', '='] ++ type ++ soh :: fields).length
  msgType := type
  fields := fields
  areDigits := fun _ member => isDigit_of_mem_render member
  closed := delimiter.not_mem fun _ member => Or.inl (isDigit_of_mem_render member)
  typed := typed
  delimited := delimited
  ends := Or.inr ends
  counts := value_render _

theorem getLast?_fieldsText (before : List Field) (field : Field) :
    (fieldsText soh (before ++ [field])).getLast? = some soh := by
  have closed : fieldsText soh (before ++ [field]) =
      fieldsText soh before ++ field.segment ++ [soh] := by
    simp [fieldsText, Field.text, fieldText, Field.segment]
  rw [closed, List.getLast?_concat]

/-- Over all messages that go on in the same way up to their MsgSeqNum, the two
readings agree exactly when no data value up to there holds the tag of MsgSeqNum
behind a delimiter. -/
theorem readings_agree_iff (version : FixVersion) (soh : UInt8)
    (delimiter : IsDelimiter soh) (name : List UInt8) (named : soh ∉ name)
    (type : List UInt8) (typed : type ≠ []) (delimited : soh ∉ type)
    (before : List Field)
    (wellFormed : WellFormed soh (FixMessageRX.init version soh).dataTags type before)
    (once : ∀ field ∈ before, field.tag ≠ 34) :
    (∀ (after : List Field) (number : Nat) (message : FixMessage soh),
        number < 2 ^ 64 - 1 → (∀ field ∈ after, field.tag ≠ 34) →
        WellFormed soh (FixMessageRX.init version soh).dataTags type
          (before ++ ⟨34, render number⟩ :: after) →
        message.msgType = type → message.fields =
          fieldsText soh (before ++ ⟨34, render number⟩ :: after) →
        ReadingsAgree version name message) ↔
      ∀ field ∈ before, (FixMessageRX.init version soh).dataTags field.tag = true →
        ¬ seqnumTag soh <:+: field.value := by
  constructor
  · intro agree field present _ imitates
    -- Messages with the numbers one and two have the imitation in common.
    have closed : ∀ number, soh ∉ render number := fun number =>
      delimiter.not_mem fun _ member => Or.inl (isDigit_of_mem_render member)
    have extended : ∀ number, WellFormed soh
        (FixMessageRX.init version soh).dataTags type
        (before ++ [⟨34, render number⟩]) := fun number =>
      wellFormed.concat (by simp) (dataTags_init version soh).2 (closed number)
    let message (number : Nat) : FixMessage soh :=
      messageOf delimiter type typed delimited _
        (getLast?_fieldsText before ⟨34, render number⟩)
    have numbered : ∀ number, number < 2 ^ 64 - 1 → ∃ read,
        getSequenceNumber soh ((message number).bytes (beginText soh name)).length
          ((message number).bytes (beginText soh name)) = some read ∧
          read.seqnum = number := by
      intro number small
      exact (readingsAgree_iff delimiter.plain (extended number) once rfl).mp
        (agree [] number (message number) small (by simp) (extended number) rfl rfl)
    have sameDigits : (message 2).digits = (message 1).digits := by
      have width : (render 2).length = (render 1).length := by decide +kernel
      simp [message, messageOf, fieldsText, Field.text, fieldText, width]
    obtain ⟨front, openingEq⟩ : ∃ front,
        opening soh name (message 1).digits type before = front ++ [soh] :=
      closeSegments_eq_concat (by simp [headerSegments])
    have occurs : seqnumTag soh <:+: front ++ [soh] :=
      openingEq ▸ infix_of_imitation present imitates
    obtain ⟨common, early⟩ := getSequenceNumber_early delimiter occurs
    obtain ⟨first, firstRead, isOne⟩ := numbered 1 (by omega)
    obtain ⟨second, secondRead, isTwo⟩ := numbered 2 (by omega)
    have opened : ∀ number, ∃ rest, (message number).bytes (beginText soh name) =
        opening soh name (message number).digits type before ++ rest :=
      fun number => ⟨_, bytes_eq_opening rfl rfl⟩
    obtain ⟨_, firstBytes⟩ := opened 1
    obtain ⟨_, secondBytes⟩ := opened 2
    rw [firstBytes, openingEq] at firstRead
    rw [secondBytes, sameDigits, openingEq] at secondRead
    have firstCommon := early _ first firstRead
    have secondCommon := early _ second secondRead
    omega
  · intro honest after number message small _ follows msgType fields
    subst msgType
    have absent : ¬ seqnumTag soh <:+:
        opening soh name message.digits message.msgType before := by
      intro occurs
      obtain ⟨field, present, data, imitates⟩ := imitation_of_infix delimiter named
        message.areDigits delimited wellFormed once occurs
      exact honest field present data imitates
    have carries := carries_of_no_imitation delimiter rfl fields absent
    rw [readingsAgree_iff delimiter.plain follows once fields]
    refine ⟨_, getSequenceNumber_of_carries (by rwa [List.take_length]), ?_⟩
    dsimp only
    rw [Nat.min_eq_left (by omega), if_neg (by omega)]

def numberedMessage (before : List Field) (number : Nat) : FixMessage 1 :=
  messageOf ⟨by decide, by decide, by decide⟩ (ascii ['D']) (by decide) (by decide)
    (fieldsText 1 (before ++ [⟨34, render number⟩])) (getLast?_fieldsText _ _)

theorem readings_agree_iff_text :
    ReadingsAgree .fix41 (ascii "FIX.4.1".toList)
      (numberedMessage [⟨58, ascii ['3', '4', '=']⟩] 5) := by
  have delimiter : IsDelimiter 1 := ⟨by decide, by decide, by decide⟩
  have text : WellFormed 1 (FixMessageRX.init .fix41 1).dataTags (ascii ['D'])
      [⟨58, ascii ['3', '4', '=']⟩] := by
    refine ⟨by simp, ?_, trivial⟩
    change (1 : UInt8) ∉ ascii ['3', '4', '=']
    decide
  have agree := (readings_agree_iff .fix41 1 delimiter (ascii "FIX.4.1".toList)
    (by decide) (ascii ['D']) (by decide) (by decide) _ text (by simp)).mpr
    (by decide +kernel)
  refine agree [] 5 _ (by omega) (by simp) ?_ rfl rfl
  exact text.concat (by simp) (dataTags_init .fix41 1).2 (by decide +kernel)

/-- The data in front of the number one hold the tag of MsgSeqNum and a seven. -/
theorem imitated_number_read :
    WellFormed 1 (FixMessageRX.init .fix41 1).dataTags (ascii ['D'])
        (dataFields ++ [⟨34, render 1⟩]) ∧
      (getSequenceNumber 1 ((numberedMessage dataFields 1).bytes
          (beginText 1 (ascii "FIX.4.1".toList))).length
        ((numberedMessage dataFields 1).bytes
          (beginText 1 (ascii "FIX.4.1".toList)))).map (·.seqnum) = some 7 ∧
      ¬ ReadingsAgree .fix41 (ascii "FIX.4.1".toList)
        (numberedMessage dataFields 1) := by
  have wellFormed : WellFormed 1 (FixMessageRX.init .fix41 1).dataTags (ascii ['D'])
      (dataFields ++ [⟨34, render 1⟩]) :=
    wellFormed_dataFields.concat (by simp) (dataTags_init .fix41 1).2
      (by decide +kernel)
  have seven : (getSequenceNumber 1 ((numberedMessage dataFields 1).bytes
      (beginText 1 (ascii "FIX.4.1".toList))).length
    ((numberedMessage dataFields 1).bytes
      (beginText 1 (ascii "FIX.4.1".toList)))).map (·.seqnum) = some 7 := by
    decide +kernel
  refine ⟨wellFormed, seven, ?_⟩
  rw [readingsAgree_iff (by decide) wellFormed (by simp [dataFields]) rfl]
  rintro ⟨read, reads, one⟩
  rw [reads, Option.map_some, one] at seven
  cases seven

end Agreement

end MercuryFix
