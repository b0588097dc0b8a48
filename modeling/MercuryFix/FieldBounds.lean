import MercuryFix.FieldTraversal
import MercuryFix.SplitterSoundness

/-!
# Traversing a delivered message

No call of `next_field` is told where the message ends.  `FieldInside` says what the
memory must hold at the position of one call for it to stay inside: a tag that ends,
and behind it a delimiter or, for a data field, a length that ends in the value
before.
-/

namespace MercuryFix

open DecimalText ByteBlock

section Numbers

def TagInside (text : List UInt8) : Prop :=
  (∃ byte ∈ text, isDigit byte = false) ∨ text.head? = some 48 ∨ maxTag < value text / 10

def LengthInside (soh : UInt8) (text : List UInt8) : Prop :=
  (∃ byte ∈ text, isDigit byte = false) ∨ soh ∈ text.tail ∨ maxLength < value text / 10

theorem getFixTag_eq_none_iff {text : List UInt8} : getFixTag text = none ↔ ¬ TagInside text := by
  cases text with
  | nil => simp [getFixTag, TagInside, value, maxTag]
  | cons byte text =>
    unfold getFixTag
    dsimp only
    by_cases equals : byte = 61
    · rw [if_pos (Or.inl equals)]
      refine iff_of_false (by simp) (not_not.mpr (Or.inl ⟨byte, by simp, ?_⟩))
      rw [equals]
      decide
    by_cases zero : byte = 48
    · rw [if_pos (Or.inr zero)]
      exact iff_of_false (by simp) (not_not.mpr (Or.inr (Or.inl (by simp [zero]))))
    have ranOut : getFixTagLoop 0 (byte :: text) = none ↔
        scan maxTag 61 0 (byte :: text) = .ranOut := by
      rw [getFixTagLoop_eq_scan]
      cases scan maxTag 61 0 (byte :: text) <;> simp
    rw [if_neg (by simp [equals, zero]), ranOut, scan_eq_ranOut_iff, valueFrom_zero]
    constructor
    · rintro ⟨digits, -, small⟩ (⟨other, member, notDigit⟩ | padded | large)
      · rw [digits other member] at notDigit
        cases notDigit
      · exact zero (by simpa using padded)
      · omega
    · intro outside
      unfold TagInside at outside
      push Not at outside
      obtain ⟨digits, -, small⟩ := outside
      have areDigits : ∀ other ∈ byte :: text, isDigit other = true := by
        intro other member
        simpa using digits other member
      refine ⟨areDigits, ?_, small⟩
      intro member
      exact absurd (areDigits 61 (List.mem_cons_of_mem _ member)) (by decide)

theorem getFixLengthValue_eq_none_iff {soh : UInt8} {text : List UInt8} :
    getFixLengthValue soh text = none ↔ ¬ LengthInside soh text := by
  cases text with
  | nil => simp [getFixLengthValue, getFixLengthLoop, LengthInside, value, maxLength]
  | cons byte text =>
    have ranOut : getFixLengthValue soh (byte :: text) = none ↔
        scan maxLength soh 0 (byte :: text) = .ranOut := by
      rw [getFixLengthValue, getFixLengthLoop_eq_scan]
      cases scan maxLength soh 0 (byte :: text) <;> simp
    rw [ranOut, scan_eq_ranOut_iff, valueFrom_zero]
    unfold LengthInside
    push Not
    simp only [Bool.not_eq_false, List.tail_cons]

theorem tagText_of_getFixTag {text rest : List UInt8} {tag : Int}
    (tagged : getFixTag text = some (tag, rest)) (positive : 0 < tag) :
    ∃ digits, TagText digits ∧ text = digits ++ 61 :: rest ∧ tag = value digits := by
  cases text with
  | nil => cases tagged
  | cons byte text =>
    unfold getFixTag at tagged
    dsimp only at tagged
    split at tagged
    · cases tagged
      omega
    · rename_i first
      rw [getFixTagLoop_eq_scan] at tagged
      cases scanned : scan maxTag 61 0 (byte :: text) with
      | ranOut =>
        rw [scanned] at tagged
        cases tagged
      | refused behind =>
        rw [scanned] at tagged
        cases tagged
        omega
      | read number behind =>
        rw [scanned] at tagged
        cases tagged
        obtain ⟨digits, nonempty, areDigits, textEq, numberEq, bounded⟩ := scan_read scanned
        rw [valueFrom_zero] at numberEq bounded
        refine ⟨digits, ⟨areDigits, nonempty, ?_, bounded⟩, textEq, ?_⟩
        · intro padded
          cases digits with
          | nil => cases padded
          | cons digit digits =>
            cases textEq
            cases padded
            exact first (Or.inr rfl)
        · rw [numberEq]

end Numbers

section Calls

variable {rx : FixMessageRX}

/-- The memory that the next call of `next_field` reads is inside the message. -/
def FieldInside (rx : FixMessageRX) : Prop :=
  ∀ text, rx.pos = some text → TagInside text ∧
    ∀ digits rest, TagText digits → text = digits ++ 61 :: rest →
      value digits ≠ 10 →
        if rx.dataTags (value digits) then
          ∃ previous, rx.prevValue = some previous ∧ LengthInside rx.soh previous
        else ∃ byte ∈ rest, charEqByte rx.soh byte = true

theorem exists_iff_length_takeWhile_lt {sought : UInt8 → Bool} {text : List UInt8} :
    (∃ byte ∈ text, sought byte = true) ↔
      (text.takeWhile fun byte => !sought byte).length < text.length := by
  have short := (List.takeWhile_prefix (l := text) fun byte => !sought byte).length_le
  rw [lt_iff_le_and_ne, and_iff_right short]
  constructor
  · rintro ⟨byte, member, equal⟩ same
    have all := List.takeWhile_eq_self_iff.mp
      ((List.takeWhile_prefix _).eq_of_length same) byte member
    simp [equal] at all
  · intro different
    by_contra none
    push Not at none
    apply different
    congr 1
    exact List.takeWhile_eq_self_iff.mpr fun byte member => by
      simpa using none byte member

theorem nextField_of_tag {text rest : List UInt8} {tag : Nat} (here : rx.pos = some text)
    (tagged : getFixTag text = some ((tag : Int), rest)) (positive : 0 < tag)
    (notLast : tag ≠ 10) :
    rx.nextField = none ↔ ¬ if rx.dataTags tag then
          ∃ previous, rx.prevValue = some previous ∧ LengthInside rx.soh previous
        else ∃ byte ∈ rest, charEqByte rx.soh byte = true := by
  unfold FixMessageRX.nextField
  rw [here]
  dsimp only
  rw [tagged]
  dsimp only
  rw [if_neg (by omega), if_neg (by omega), Int.toNat_natCast]
  cases data : rx.dataTags tag with
  | true =>
    rw [if_pos rfl, if_pos rfl]
    cases previous : rx.prevValue with
    | none => simp
    | some before =>
      have ends : getFixLengthValue rx.soh before = none ↔
          ¬ LengthInside rx.soh before := getFixLengthValue_eq_none_iff
      rw [Option.bind_some]
      cases length : getFixLengthValue rx.soh before with
      | none => simpa using ends.mp length
      | some number =>
        have inside : LengthInside rx.soh before := by
          by_contra outside
          rw [ends.mpr outside] at length
          cases length
        refine iff_of_false ?_ (not_not.mpr ⟨before, rfl, inside⟩)
        dsimp only
        split <;> simp
  | false =>
    rw [if_neg Bool.false_ne_true, if_neg Bool.false_ne_true]
    rw [exists_iff_length_takeWhile_lt]
    split
    · rename_i inside
      exact iff_of_false (by simp) (not_not.mpr inside)
    · rename_i outside
      exact iff_of_true rfl outside

theorem nextField_eq_none_iff : rx.nextField = none ↔ ¬ FieldInside rx := by
  cases here : rx.pos with
  | none =>
    refine iff_of_false ?_ (not_not.mpr ?_)
    · simp [FixMessageRX.nextField, here]
    · intro text impossible
      rw [here] at impossible
      cases impossible
  | some text =>
    cases tagged : getFixTag text with
    | none =>
      refine iff_of_true ?_ ?_
      · simp [FixMessageRX.nextField, here, tagged]
      · intro inside
        exact getFixTag_eq_none_iff.mp tagged (inside text here).1
    | some result =>
      obtain ⟨tag, rest⟩ := result
      have tagInside : TagInside text := by
        by_contra outside
        rw [getFixTag_eq_none_iff.mpr outside] at tagged
        cases tagged
      have same : ∀ digits behind, TagText digits → text = digits ++ 61 :: behind →
          tag = value digits ∧ rest = behind := by
        intro digits behind tagText splits
        rw [splits, getFixTag_of_tagText tagText] at tagged
        cases tagged
        exact ⟨rfl, rfl⟩
      by_cases early : tag ≤ 0 ∨ tag = 10
      · refine iff_of_false ?_ (not_not.mpr ?_)
        · rcases early with negative | last
          · simp [FixMessageRX.nextField, here, tagged, negative]
          · simp [FixMessageRX.nextField, here, tagged, last]
        · intro other located
          rw [here, Option.some.injEq] at located
          subst located
          refine ⟨tagInside, ?_⟩
          intro digits behind tagText splits notLast
          have positive := tagText.positive
          have tagEq := (same digits behind tagText splits).1
          omega
      · rw [not_or, not_le] at early
        obtain ⟨digits, tagText, splits, tagEq⟩ := tagText_of_getFixTag tagged early.1
        have notLast : value digits ≠ 10 := by
          intro last
          apply early.2
          omega
        rw [tagEq] at tagged
        rw [nextField_of_tag here tagged tagText.positive notLast, not_iff_not]
        constructor
        · intro inside other located
          rw [here, Option.some.injEq] at located
          subst located
          refine ⟨tagInside, ?_⟩
          intro others behind otherText otherSplits _
          obtain ⟨sameTag, rfl⟩ := same others behind otherText otherSplits
          have equal : value others = value digits := by omega
          rwa [equal]
        · intro inside
          exact (inside text here).2 digits rest tagText splits notLast

theorem fieldInside_of_reads {field : FieldRead} (reads : rx.nextField = some field) :
    FieldInside rx := by
  by_contra outside
  rw [nextField_eq_none_iff.mpr outside] at reads
  cases reads

theorem nextField_shortens {field : FieldRead} (reads : rx.nextField = some field) :
    field.tag = 0 ∨ field.tag = -1 ∨ 0 < field.tag ∧
      ∃ text rest, rx.pos = some text ∧ field.rx.pos = some rest ∧ rest.length < text.length := by
  unfold FixMessageRX.nextField at reads
  split at reads
  · cases reads
    exact Or.inl rfl
  · rename_i text here
    split at reads
    · cases reads
    · rename_i tag value tagged
      split at reads
      · cases reads
        exact Or.inr (Or.inl rfl)
      · rename_i positive
        obtain ⟨digits, tagText, splits, -⟩ := tagText_of_getFixTag tagged (not_le.mp positive)
        have shorter : ∀ count, (value.drop count).length < text.length := by
          intro count
          rw [splits, List.length_append, List.length_cons, List.length_drop]
          omega
        split at reads
        · cases reads
          exact Or.inl rfl
        · split at reads
          · split at reads
            · cases reads
            · dsimp only at reads
              split at reads
              · cases reads
                exact Or.inr (Or.inl rfl)
              · cases reads
                exact Or.inr (Or.inr ⟨not_le.mp positive, text, _, here, rfl, shorter _⟩)
          · dsimp only at reads
            split at reads
            · cases reads
              exact Or.inr (Or.inr ⟨not_le.mp positive, text, _, here, rfl, shorter _⟩)
            · cases reads

inductive FixMessageRX.Reaches : FixMessageRX → FixMessageRX → Prop
  | here (rx : FixMessageRX) : Reaches rx rx
  | next {rx last : FixMessageRX} {field : FieldRead}
      (reads : rx.nextField = some field) (positive : 0 < field.tag)
      (later : Reaches field.rx last) : Reaches rx last

theorem FixMessageRX.forall_reaches_iff {property : FixMessageRX → Prop}
    {field : FieldRead} (reads : rx.nextField = some field) :
    (∀ reached, rx.Reaches reached → property reached) ↔
      property rx ∧ (0 < field.tag → ∀ reached, field.rx.Reaches reached → property reached) := by
  constructor
  · intro all
    exact ⟨all rx (.here rx), fun positive reached later =>
      all reached (.next reads positive later)⟩
  · rintro ⟨first, others⟩ reached reaches
    cases reaches with
    | here => exact first
    | next otherReads positive later =>
      rw [reads, Option.some.injEq] at otherReads
      subst otherReads
      exact others positive reached later

theorem traverse_ends_iff {text : List UInt8} (start : rx.pos = some text)
    {rounds : Nat} (enough : text.length < rounds) :
    (∃ fields last, rx.traverse rounds = some (fields, last) ∧ (last = 0 ∨ last = -1)) ↔
      ∀ reached, rx.Reaches reached → FieldInside reached := by
  induction rounds generalizing rx text with
  | zero => omega
  | succ rounds induction =>
    rw [FixMessageRX.traverse]
    cases reads : rx.nextField with
    | none =>
      refine iff_of_false (by simp) ?_
      intro inside
      exact nextField_eq_none_iff.mp reads (inside rx (.here rx))
    | some field =>
      rw [Option.bind_some, FixMessageRX.forall_reaches_iff reads,
        and_iff_right (fieldInside_of_reads reads)]
      by_cases last : field.tag ≤ 0
      · rw [if_pos last]
        refine iff_of_true ⟨[], field.tag, rfl, ?_⟩ fun positive => by omega
        rcases nextField_shortens reads with zero | negative | ⟨positive, -⟩
        · exact Or.inl zero
        · exact Or.inr negative
        · omega
      · obtain ⟨before, rest, located, moved, shorter⟩ :
            ∃ text rest, rx.pos = some text ∧ field.rx.pos = some rest ∧
              rest.length < text.length := by
          rcases nextField_shortens reads with zero | negative | ⟨-, shortens⟩
          · omega
          · omega
          · exact shortens
        rw [start, Option.some.injEq] at located
        subst located
        rw [if_neg last, imp_iff_right (not_le.mp last),
          ← induction moved (by omega : rest.length < rounds)]
        constructor
        · rintro ⟨fields, code, traversed, ends⟩
          obtain ⟨⟨others, final⟩, laterTraversed, same⟩ := Option.map_eq_some_iff.mp traversed
          cases same
          exact ⟨others, _, laterTraversed, ends⟩
        · rintro ⟨fields, code, traversed, ends⟩
          exact ⟨_, code, by rw [traversed]; rfl, ends⟩

end Calls

section Delivery

/-- Behind `imprint` on a delivered message, the calls of `next_field` up to the first
that returns 0 or -1 come to an end and stay inside the message exactly when each
call finds what it looks for there. -/
theorem delivered_traversal_iff (args : SplitterArgs) (lastReceived : UInt64)
    (entries : List FoxtrotEntry) (effect : Effect) (size offset : Nat)
    (data : List UInt8) (commits : Commits size offset data effect)
    (emitted : effect ∈ (splitEntries args (.initial lastReceived) entries).2)
    (dataTags : Nat → Bool) :
    ∃ rx, (FixMessageRX.mk args.soh dataTags none none).imprint offset data =
        some rx ∧
      ((∃ fields last, rx.traverse (data.length + 1) = some (fields, last) ∧
          (last = 0 ∨ last = -1)) ↔
        ∀ reached, rx.Reaches reached → FieldInside reached) := by
  have typed : 3 ≤ offset := by
    rw [splitEntries_effects] at emitted
    obtain ⟨before, byte, after, -, emits⟩ :=
      MealyMachine.exists_step_of_mem_run emitted
    obtain ⟨message, consumed, found, delivered⟩ := found_of_effect emits
    have noFault := noFault_of_found found
    have assembled := (progress_found (splitBytes_sound
      (sound_initial args lastReceived) before noFault) noFault found).1
    obtain ⟨-, -, -, -, -, offsetEq, -⟩ := inSequence_of_commit commits delivered
    have short := assembled.short
    have beginFits := args.fits
    rw [offsetEq, msgTypeOffset, headerLength]
    omega
  refine ⟨_, if_neg (by omega), traverse_ends_iff rfl ?_⟩
  rw [List.length_drop]
  omega

theorem delivered_traversal_iff_order :
    ∃ rx, (FixMessageRX.mk 1 (FixMessageRX.init .fix41 1).dataTags none none).imprint
        18 orderEntry.data = some rx ∧
      ((∃ fields last, rx.traverse (orderEntry.data.length + 1) =
          some (fields, last) ∧ (last = 0 ∨ last = -1)) ↔
        ∀ reached, rx.Reaches reached → FieldInside reached) :=
  delivered_traversal_iff fix41Args 0 [orderEntry] _ 32 18 orderEntry.data .delta
    (by decide +kernel) _

def dataTypeBytes : List UInt8 :=
  let summed := fix41Args.beginString ++ ascii ['1', '0'] ++
    1 :: ascii ['9', '6', '=', 'D'] ++ 1 :: ascii ['3', '4', '=', '1'] ++ [1]
  summed ++ ascii ['1', '0', '='] ++ sprintf03u (getFIXChecksum summed) ++ [1]

def openEndedBytes : List UInt8 :=
  let summed := orderMessage.summed fix41Args.beginString
  summed ++ ascii ['5', '8', '='] ++ sprintf03u (getFIXChecksum summed) ++ [120]

def dataTypeEntry : FoxtrotEntry where
  data := dataTypeBytes
  fits := by decide +kernel

def openEndedEntry : FoxtrotEntry where
  data := openEndedBytes
  fits := by decide +kernel

/-- Both are delivered.  On the first one `next_field` reads a length through NULL,
on the second one it looks for a delimiter behind the message. -/
theorem traversal_leaves_message :
    (Effect.deltaCommit 32 18 dataTypeBytes ∈
        (splitEntries fix41Args (.initial 0) [dataTypeEntry]).2 ∧
      ((FixMessageRX.init .fix41 1).imprint 18 dataTypeBytes).bind
        (·.traverse 33) = none) ∧
    Effect.deltaCommit 32 18 openEndedBytes ∈
        (splitEntries fix41Args (.initial 0) [openEndedEntry]).2 ∧
      ((FixMessageRX.init .fix41 1).imprint 18 openEndedBytes).bind
        (·.traverse 33) = none := by
  decide +kernel

end Delivery

end MercuryFix
