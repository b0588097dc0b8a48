import MercuryFix.Marshal

/-!
# Formats and what they write

The documented formats are lists of specifiers with white space between them.
`vmarshal` lays one patch over the buffer for each argument, and returns true if it
has come to the end of the format.
-/

namespace MercuryFix

open ByteBlock

inductive Whitespace
  | tab
  | newline
  | verticalTab
  | formFeed
  | carriageReturn
  | space
  deriving DecidableEq

def Whitespace.byte : Whitespace → UInt8
  | tab => 0x09
  | newline => 0x0A
  | verticalTab => 0x0B
  | formFeed => 0x0C
  | carriageReturn => 0x0D
  | space => 0x20

inductive FormatItem
  | blank (whitespace : Whitespace)
  | directive (unSigned : Bool) (specifier : Specifier)
  deriving DecidableEq

def FormatItem.text : FormatItem → List UInt8
  | blank whitespace => [whitespace.byte]
  | directive true specifier => [0x25, 0x75, specifier.char]
  | directive false specifier => [0x25, specifier.char]

def FormatItem.round : FormatItem → Directive
  | blank _ => ⟨none, some .other⟩
  | directive unSigned specifier => ⟨some unSigned, some (.specifier specifier)⟩

theorem directives_text (items : List FormatItem) :
    directives (items.flatMap FormatItem.text) = items.map FormatItem.round := by
  have named (specifier : Specifier) : FormatChar.ofByte specifier.char = .specifier specifier := by
    cases specifier <;> rfl
  have blank (whitespace : Whitespace) : FormatChar.ofByte whitespace.byte = .other := by
    cases whitespace <;> rfl
  induction items with
  | nil => rfl
  | cons item items induction =>
    unfold directives at induction ⊢
    rw [List.flatMap_cons, List.map_append, List.map_cons, ← induction]
    cases item with
    | blank whitespace =>
      simp only [FormatItem.text, List.map_cons, List.map_nil, blank]
      rfl
    | directive unSigned specifier =>
      cases unSigned
      all_goals
        simp only [FormatItem.text, List.map_cons, List.map_nil, named]
        rfl

variable {Double : Type}

section Patches

def patchesOf (ieee : Ieee754 Double) :
    List Directive → List (Arg Double) → Option (List (Patch UInt8))
  | [], _ => some []
  | ⟨_, some (.specifier specifier)⟩ :: rest, arg :: args => do
      let patch ← specifier.patch ieee arg
      let patches ← patchesOf ieee rest args
      some (patch :: patches)
  | ⟨_, some (.specifier _)⟩ :: _, [] => none
  | ⟨_, none⟩ :: _, _ => none
  | ⟨_, some _⟩ :: rest, args => patchesOf ieee rest args

variable {ieee : Ieee754 Double} {specifier : Specifier} {arg : Arg Double}
  {args : List (Arg Double)} {patch : Patch UInt8}

section

variable (found : specifier.patch ieee arg = some patch)
include found

theorem inc_of_patch : specifier.inc (arg :: args) = some patch.span := by
  cases specifier <;> rcases arg with ⟨_ | text⟩ | value | value <;>
    simp only [Specifier.patch, Option.some.injEq, reduceCtorEq] at found <;>
    subst found <;> rfl

theorem patch_shape : 0 < patch.cells.length ∧
      (specifier = .string ∧ patch.span = patch.cells.length ∨
        specifier ≠ .string ∧ patch.span = 8 * patch.cells.length) := by
  cases specifier <;> rcases arg with ⟨_ | text⟩ | value | value <;>
    simp only [Specifier.patch, Option.some.injEq, reduceCtorEq] at found <;>
    subst found <;> simp [length_integerBytes, setu32, setu64]

theorem span_pos : 0 < patch.span := by
  obtain ⟨positive, ⟨-, full⟩ | ⟨-, wide⟩⟩ := patch_shape found <;> omega

theorem patch_full_iff : patch.cells.length = patch.span ↔ specifier = .string := by
  obtain ⟨positive, ⟨string, full⟩ | ⟨number, wide⟩⟩ := patch_shape found
  · exact iff_of_true full.symm string
  · exact iff_of_false (by omega) number

end

variable {buf : List UInt8} {count : Nat}

theorem memcpy_patch {patch : Patch UInt8} (room : count + patch.span ≤ buf.length) :
    ∃ next, memcpy buf count patch.cells = some next ∧ next.length = buf.length ∧
      next.take (count + patch.span) =
        buf.take count ++ overlay [patch] (buf.drop count) ∧
      next.drop (count + patch.span) = buf.drop (count + patch.span) := by
  have fits := patch.fits
  have inside : count + patch.cells.length ≤ buf.length := by omega
  have front : (buf.take count ++ overlay [patch] (buf.drop count)).length =
      count + patch.span := by
    rw [List.length_append, List.length_take, length_overlay]
    · simp only [spanOf_cons, spanOf_nil]
      omega
    · simp only [spanOf_cons, spanOf_nil, List.length_drop]
      omega
  refine ⟨_, memcpy_of_fits inside, length_blit inside, ?_, ?_⟩
  · rw [blit_patch, List.take_left' front]
  · rw [blit_patch, List.drop_left' front]

/-- What a round of `vmarshal` does with a specifier. -/
inductive MarshalRound (ieee : Ieee754 Double) (len : Nat)
    (specifier : Specifier) (rounds : List Directive) (args : List (Arg Double))
    (buf : List UInt8) (count : Nat) (marshalled : Marshalled) : Prop
  | full {inc : Nat} (found : specifier.inc args = some inc)
      (overrun : len < count + inc)
      (same : marshalled = ⟨false, count, buf⟩)
  | last {arg : Arg Double} {rest : List (Arg Double)} {patch : Patch UInt8}
      {next : List UInt8} (takes : args = arg :: rest)
      (found : specifier.patch ieee arg = some patch)
      (exact : len = count + patch.span)
      (copies : memcpy buf count patch.cells = some next)
      (same : marshalled = ⟨rounds.isEmpty, count + patch.span, next⟩)
  | goes {arg : Arg Double} {rest : List (Arg Double)} {patch : Patch UInt8}
      {next : List UInt8} (takes : args = arg :: rest)
      (found : specifier.patch ieee arg = some patch)
      (room : count + patch.span < len)
      (copies : memcpy buf count patch.cells = some next)
      (continues : vmarshalLoop ieee len rounds rest next
        (count + patch.span) = some marshalled)

variable {rounds : List Directive} {marshalled : Marshalled}

theorem marshalRound_of_loop {len : Nat} {sign : Option Bool} (returns : vmarshalLoop ieee len
      (⟨sign, some (.specifier specifier)⟩ :: rounds) args buf count = some marshalled) :
    MarshalRound ieee len specifier rounds args buf count marshalled := by
  rw [vmarshalLoop] at returns
  obtain ⟨inc, found, rest⟩ := Option.bind_eq_some_iff.mp returns
  split at rest
  · rename_i overrun
    cases rest
    exact .full found overrun rfl
  · rename_i room
    cases args with
    | nil => cases rest
    | cons arg args =>
      obtain ⟨patch, patchFound, rest⟩ := Option.bind_eq_some_iff.mp rest
      obtain ⟨next, copies, rest⟩ := Option.bind_eq_some_iff.mp rest
      cases found.symm.trans (inc_of_patch patchFound)
      split at rest
      · rename_i exactFit
        cases rest
        exact .last rfl patchFound exactFit copies rfl
      · exact .goes rfl patchFound (by omega) copies rest

/-- What a successful loop has written. -/
structure Laid (ieee : Ieee754 Double) (rounds : List Directive)
    (args : List (Arg Double)) (buf : List UInt8) (count : Nat)
    (marshalled : Marshalled) (patches : List (Patch UInt8)) : Prop where
  found : patchesOf ieee rounds args = some patches
  count_eq : marshalled.count = count + spanOf patches
  room : count + spanOf patches ≤ buf.length
  buf_eq : marshalled.buf = buf.take count ++
    overlay patches (buf.drop count) ++ buf.drop (count + spanOf patches)

theorem Laid.cons {sign : Option Bool} {rest : List (Arg Double)} {next : List UInt8}
    {patches : List (Patch UInt8)} (found : specifier.patch ieee arg = some patch)
    (room : count + patch.span ≤ buf.length) (copies : memcpy buf count patch.cells = some next)
    (laid : Laid ieee rounds rest next (count + patch.span) marshalled patches) :
    Laid ieee (⟨sign, some (.specifier specifier)⟩ :: rounds) (arg :: rest) buf
      count marshalled (patch :: patches) := by
  obtain ⟨behind, copied, length, front, rear⟩ := memcpy_patch room
  cases copies.symm.trans copied
  obtain ⟨later, countEq, inside, bufEq⟩ := laid
  refine ⟨?_, ?_, ?_, ?_⟩
  · rw [patchesOf, found, later]
    rfl
  · rw [countEq, spanOf_cons]
    omega
  · rw [spanOf_cons]
    omega
  · have rearAll : next.drop (count + patch.span + spanOf patches) =
        buf.drop (count + patch.span + spanOf patches) := by
      rw [← List.drop_drop, rear, List.drop_drop]
    rw [bufEq, front, rear, rearAll, overlay, overlay, overlay, List.append_nil,
      spanOf_cons, List.drop_drop, ← Nat.add_assoc]
    simp only [List.append_assoc]

theorem vmarshalLoop_laid {len : Nat} (room : len ≤ buf.length) (below : count ≤ buf.length)
    (returns : vmarshalLoop ieee len rounds args buf count = some marshalled)
    (done : marshalled.done = true) :
    ∃ patches, Laid ieee rounds args buf count marshalled patches := by
  induction rounds generalizing args buf count with
  | nil =>
    cases returns
    exact ⟨[], rfl, rfl, below, by simp [overlay]⟩
  | cons round rounds induction =>
    rcases round with ⟨sign, _ | char⟩
    · cases returns
    · cases char with
      | specifier specifier =>
        cases marshalRound_of_loop returns with
        | full found overrun same =>
          rw [same] at done
          cases done
        | @last arg rest patch next takes found exactFit copies same =>
          subst takes same
          have end_ : rounds = [] := List.isEmpty_iff.mp done
          subst end_
          have length := length_memcpy copies
          refine ⟨[patch], Laid.cons found (by omega) copies
            ⟨rfl, rfl, by simp only [spanOf_nil]; omega, ?_⟩⟩
          simp [overlay]
        | @goes arg rest patch next takes found inside copies continues =>
          subst takes
          have length := length_memcpy copies
          obtain ⟨patches, laid⟩ := induction (by omega) (by omega) continues
          exact ⟨patch :: patches, Laid.cons found (by omega) copies laid⟩
      | percent | u | other =>
        obtain ⟨patches, found, countEq, inside, bufEq⟩ := induction room below returns
        exact ⟨patches, found, countEq, inside, bufEq⟩

theorem vmarshalLoop_of_patch {len : Nat} {sign : Option Bool} {rest : List (Arg Double)}
    {next : List UInt8} (found : specifier.patch ieee arg = some patch)
    (room : count + patch.span ≤ len) (copies : memcpy buf count patch.cells = some next) :
    vmarshalLoop ieee len (⟨sign, some (.specifier specifier)⟩ :: rounds) (arg :: rest) buf count =
      if len = count + patch.span then
        some ⟨rounds.isEmpty, count + patch.span, next⟩
      else vmarshalLoop ieee len rounds rest next (count + patch.span) := by
  rw [vmarshalLoop, inc_of_patch found]
  simp only [Option.bind_eq_bind, Option.bind_some, if_neg (not_lt.mpr room), found, copies]

theorem vmarshalLoop_steered {len : Nat} {other : List UInt8} (length : other.length = buf.length)
    (returns : vmarshalLoop ieee len rounds args buf count = some marshalled) :
    ∃ next, vmarshalLoop ieee len rounds args other count =
        some ⟨marshalled.done, marshalled.count, next⟩ ∧
      next.length = buf.length ∧ marshalled.buf.length = buf.length := by
  induction rounds generalizing args buf other count with
  | nil =>
    cases returns
    exact ⟨other, rfl, length, rfl⟩
  | cons round rounds induction =>
    rcases round with ⟨sign, _ | char⟩
    · cases returns
    · cases char with
      | specifier specifier =>
        have copied {patch : Patch UInt8} {next : List UInt8}
            (copies : memcpy buf count patch.cells = some next) :
            memcpy other count patch.cells = some (blit other count patch.cells) := by
          have inside := fits_of_memcpy copies
          exact memcpy_of_fits (by omega)
        cases marshalRound_of_loop returns with
        | full found overrun same =>
          subst same
          refine ⟨other, ?_, length, rfl⟩
          rw [vmarshalLoop, found]
          simp [overrun]
        | @last arg rest patch next takes found exactFit copies same =>
          subst takes same
          have lengthNext := length_memcpy copies
          refine ⟨blit other count patch.cells, ?_, ?_, lengthNext⟩
          · rw [vmarshalLoop_of_patch found exactFit.ge (copied copies), if_pos exactFit]
          · exact (length_memcpy (copied copies)).trans length
        | @goes arg rest patch next takes found room copies continues =>
          subst takes
          have lengthNext := length_memcpy copies
          have lengthOther := length_memcpy (copied copies)
          obtain ⟨final, runs, lengthFinal, lengthBuf⟩ := induction
            (lengthOther.trans (length.trans lengthNext.symm)) continues
          refine ⟨final, ?_, lengthFinal.trans lengthNext, lengthBuf.trans lengthNext⟩
          rw [vmarshalLoop_of_patch found room.le (copied copies), if_neg room.ne', runs]
      | percent | u | other => exact induction length returns

end Patches

section Data

inductive IntegerKind
  | byte
  | word
  | long
  | quad
  deriving DecidableEq

def IntegerKind.specifier : IntegerKind → Specifier
  | byte => .byte
  | word => .word
  | long => .long
  | quad => .quad

def IntegerKind.width : IntegerKind → Nat
  | byte => 1
  | word => 2
  | long => 4
  | quad => 8

/-- A specifier with the argument that it needs. -/
inductive Datum
  | string (unSigned : Bool) (text : List UInt8)
  | integer (unSigned : Bool) (kind : IntegerKind) (value : Int)
  deriving DecidableEq

namespace Datum

def unSigned : Datum → Bool
  | string unSigned _ | integer unSigned _ _ => unSigned

def specifier : Datum → Specifier
  | string .. => .string
  | integer _ kind _ => kind.specifier

def arg : Datum → Arg Double
  | string _ text => .string (some text)
  | integer _ _ value => .integer value

def value : Datum → Value Double
  | string _ text => .string text
  | integer unSigned kind value =>
    .integer (if unSigned then value % 256 ^ kind.width
      else value.bmod (256 ^ kind.width))

def Proper : Datum → Prop
  | string _ text => (0 : UInt8) ∉ text
  | integer .. => True

instance : DecidablePred Proper
  | string _ text => inferInstanceAs (Decidable ((0 : UInt8) ∉ text))
  | integer .. => inferInstanceAs (Decidable True)

theorem length_terminated (text : List UInt8) :
    (cString text ++ [0]).length ≤ (cString text).length + 1 :=
  List.length_append.le

def patch : Datum → Patch UInt8
  | string _ text =>
    ⟨cString text ++ [0], (cString text).length + 1, length_terminated text⟩
  | integer _ kind value =>
    ⟨integerBytes kind.width value, 8 * kind.width, by
      rw [length_integerBytes]
      omega⟩

end Datum

def formatOf (data : List Datum) : List UInt8 :=
  data.flatMap fun datum =>
    FormatItem.text (.directive datum.unSigned datum.specifier)

def argsOf (data : List Datum) : List (Arg Double) := data.map Datum.arg

def patchesFor (data : List Datum) : List (Patch UInt8) := data.map Datum.patch

end Data

end MercuryFix
