import MercuryFix.IpcFrames
import Mathlib.Data.Nat.ModEq

/-!
# The width of a number

The size of a number is counted in bits where the buffer is counted in bytes, so each
number takes eight times its width.
-/

namespace MercuryFix

open ByteBlock

variable {Double : Type}

def Specifier.naturalSize : Specifier → Arg Double → Option Nat
  | string, .string (some text) => some ((cString text).length + 1)
  | string, .string none => some 0
  | byte, .integer _ => some 1
  | word, .integer _ => some 2
  | long, .integer _ => some 4
  | quad, .integer _ => some 8
  | float, .double _ => some 4
  | double, .double _ => some 8
  | _, _ => none

def naturalSize : List FormatItem → List (Arg Double) → Option Nat
  | [], _ => some 0
  | .blank _ :: items, args => naturalSize items args
  | .directive _ _ :: _, [] => none
  | .directive _ specifier :: items, arg :: args => do
      let width ← specifier.naturalSize arg
      let rest ← naturalSize items args
      some (width + rest)

def FormatItem.Numeric : FormatItem → Prop
  | blank _ => False
  | directive _ specifier => specifier ≠ .string

instance : DecidablePred FormatItem.Numeric
  | .blank _ => inferInstanceAs (Decidable False)
  | .directive _ specifier => inferInstanceAs (Decidable (specifier ≠ .string))

section Size

theorem size_eq {specifier : Specifier} {arg : Arg Double} {width : Nat}
    (natural : specifier.naturalSize arg = some width) :
    ∃ number, number ≤ width ∧ (number = 0 ↔ specifier = .string) ∧
      specifier.size arg = some (width + 7 * number) := by
  cases specifier with
  | string =>
    refine ⟨0, Nat.zero_le _, by simp, ?_⟩
    rcases arg with ⟨_ | text⟩ | value | value <;> cases natural <;> rfl
  | byte | word | long | quad | float | double =>
    rcases arg with ⟨_ | text⟩ | value | value <;> cases natural
    exact ⟨_, le_rfl, by simp, rfl⟩

theorem vmarshalSizeLoop_natural {items : List FormatItem}
    {args : List (Arg Double)} {natural : Nat}
    (found : naturalSize items args = some natural) :
    ∃ numbers, numbers ≤ natural ∧ (numbers = 0 ↔ ∀ item ∈ items, ¬ item.Numeric) ∧
      ∀ retv, vmarshalSizeLoop (items.map FormatItem.round) args (retv % 2 ^ 32) =
        some ((retv + (natural + 7 * numbers)) % 2 ^ 32) := by
  induction items generalizing args natural with
  | nil =>
    cases found
    exact ⟨0, le_rfl, by simp, fun retv => rfl⟩
  | cons item items induction =>
    cases item with
    | blank whitespace =>
      obtain ⟨numbers, bound, none_, counts⟩ := induction found
      refine ⟨numbers, bound, ?_, counts⟩
      rw [none_, List.forall_mem_cons]
      exact (and_iff_right id).symm
    | directive unSigned specifier =>
      cases args with
      | nil => cases found
      | cons arg args =>
        obtain ⟨width, natural, found⟩ := Option.bind_eq_some_iff.mp found
        obtain ⟨rest, others, found⟩ := Option.bind_eq_some_iff.mp found
        cases found
        obtain ⟨number, below, string, size⟩ := size_eq natural
        obtain ⟨numbers, bound, none_, counts⟩ := induction others
        refine ⟨number + numbers, by omega, ?_, fun retv => ?_⟩
        · rw [Nat.add_eq_zero_iff, string, none_, List.forall_mem_cons, FormatItem.Numeric, not_not]
        · have sum : retv + (width + rest + 7 * (number + numbers)) =
              retv + (width + 7 * number) + (rest + 7 * numbers) := by
            omega
          rw [sum, ← counts, List.map_cons, FormatItem.round, vmarshalSizeLoop, size]
          simp only [Option.bind_eq_bind, Option.bind_some, Nat.mod_add_mod]

theorem add_seven_mod_eq_iff {modulus natural numbers : Nat}
    (coprime : modulus.Coprime 7) (positive : 0 < modulus) (bound : numbers ≤ natural) :
    (natural + 7 * numbers) % modulus = natural ↔ numbers = 0 ∧ natural < modulus := by
  constructor
  · intro same
    have small : natural < modulus := same ▸ Nat.mod_lt _ positive
    have congruent : natural ≡ natural + 7 * numbers [MOD modulus] :=
      (Nat.mod_eq_of_lt small).trans same.symm
    have divides := (Nat.modEq_iff_dvd' (Nat.le_add_right _ _)).mp congruent
    rw [Nat.add_sub_cancel_left] at divides
    exact ⟨Nat.eq_zero_of_dvd_of_lt (coprime.dvd_of_dvd_mul_left divides)
      (lt_of_le_of_lt bound small), small⟩
  · rintro ⟨rfl, small⟩
    exact Nat.mod_eq_of_lt small

theorem vmarshalSize_natural_iff {items : List FormatItem}
    {args : List (Arg Double)} {natural : Nat}
    (found : naturalSize items args = some natural) :
    vmarshalSize (items.flatMap FormatItem.text) args = some natural ↔
      (∀ item ∈ items, ¬ item.Numeric) ∧ natural < 2 ^ 32 := by
  obtain ⟨numbers, bound, none_, counts⟩ := vmarshalSizeLoop_natural found
  have size : vmarshalSize (items.flatMap FormatItem.text) args =
      some ((natural + 7 * numbers) % 2 ^ 32) := by
    rw [vmarshalSize, directives_text, ← Nat.zero_add (natural + 7 * numbers)]
    exact counts 0
  rw [size, Option.some.injEq, ← none_]
  exact add_seven_mod_eq_iff (by decide) (by decide) bound

end Size

section Result

def resultData (res : UInt32) : List Datum := [.integer true .long res.toNat]

theorem sendResult_eq (ieee : Ieee754 Double) {buf : List UInt8} {res : UInt32}
    (length : buf.length = ipcBufferSize) (nonzero : res ≠ 0) :
    ∃ frame next : List UInt8, frame.length = 40 ∧ ∀ sends,
      sendResult ieee buf res sends = (sendAll frame sends).map fun sent =>
        (⟨next, sent.1, if sent.2 then 40 else 0⟩, false) := by
  have legal : cmdResult ≠ 0 := by decide
  have span : spanOf (patchesFor (resultData res)) = 32 := rfl
  have fits : spanOf (patchesFor (resultData res)) ≤ ipcBufferSize - ipcHeaderSize := by
    rw [span]
    decide
  refine ⟨frameFor cmdResult (resultData res) buf,
    frameFor cmdResult (resultData res) buf ++ buf.drop (ipcHeaderSize + 32),
    (length_frameFor cmdResult length fits).trans (by rw [span]; rfl),
    fun sends => ?_⟩
  have called := vsendCmd_data ieee legal length fits sends
  have same : (callFor cmdResult (resultData res) : IpcCall Double) =
      ⟨cmdResult, cmdResultFormat, [.integer res.toNat]⟩ := rfl
  rw [same, span] at called
  rw [sendResult, if_neg nonzero, called]
  cases sendAll (frameFor cmdResult (resultData res) buf) sends with
  | none => rfl
  | some sent =>
    rcases sent with ⟨wire, _ | _⟩
    · rfl
    · rfl

/-- The sizes are right exactly for strings that fit the type of the size, and the
frame of a result never has the size that `send_result` expects. -/
theorem widths_natural_iff :
    (∀ (items : List FormatItem) (args : List (Arg Double)) (natural : Nat),
      naturalSize items args = some natural →
      (vmarshalSize (items.flatMap FormatItem.text) args = some natural ↔
        (∀ item ∈ items, ¬ item.Numeric) ∧ natural < 2 ^ 32)) ∧
    ∀ (ieee : Ieee754 Double) (buf : List UInt8) (res : UInt32),
      buf.length = ipcBufferSize → res ≠ 0 →
      ∃ frame next : List UInt8, frame.length = 40 ∧ ∀ sends,
        sendResult ieee buf res sends = (sendAll frame sends).map fun sent =>
          (⟨next, sent.1, if sent.2 then 40 else 0⟩, false) :=
  ⟨fun _ _ _ found => vmarshalSize_natural_iff found,
    fun ieee _ _ length nonzero => sendResult_eq ieee length nonzero⟩

theorem widths_natural_string :
    vmarshalSize (ascii ['%', 's', ' ', '%', 'u', 's'])
        ([.string (some [0x41]), .string (some [])] : List (Arg Unit)) = some 3 ∧
      ∃ frame next : List UInt8, frame.length = 40 ∧ ∀ sends,
        sendResult noFloats initialIpcBuffer 1 sends =
          (sendAll frame sends).map fun sent =>
            (⟨next, sent.1, if sent.2 then 40 else 0⟩, false) :=
  ⟨(widths_natural_iff.1
      [.directive false .string, .blank .space, .directive true .string]
      [.string (some [0x41]), .string (some [])] 3 rfl).mpr (by decide),
    widths_natural_iff.2 noFloats initialIpcBuffer 1 List.length_replicate
      (by decide)⟩

/-- The format of a result counts 32 bytes for its 4, and the answer is that the
result was not sent. -/
theorem result_too_wide :
    naturalSize [.directive true .long] ([.integer 1] : List (Arg Unit)) =
        some 4 ∧
      vmarshalSize cmdResultFormat ([.integer 1] : List (Arg Unit)) = some 32 ∧
      (sendResult noFloats initialIpcBuffer 1 [some 40]).map
        (fun result => (result.1.wire.length, result.2)) = some (40, false) := by
  decide +kernel

end Result

end MercuryFix
