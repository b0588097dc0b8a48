import MercuryFix.DecimalText

/-!
# Scanning a bounded decimal number

A scanner accumulates digits up to a stop byte.  It gives up on any other byte and
before a number that could overflow, and it runs out when the text ends before one of
these is met.
-/

namespace DecimalText

/-- The number that the digits of a text make behind another number. -/
def valueFrom (number : Nat) (text : List UInt8) : Nat :=
  text.foldl (fun number byte => 10 * number + (byte.toNat - 48)) number

theorem valueFrom_zero (text : List UInt8) : valueFrom 0 text = value text := rfl

theorem valueFrom_nil (number : Nat) : valueFrom number [] = number := rfl

theorem valueFrom_cons (number : Nat) (byte : UInt8) (text : List UInt8) :
    valueFrom number (byte :: text) = valueFrom (10 * number + (byte.toNat - 48)) text := by
  unfold valueFrom
  rw [List.foldl_cons]

theorem le_valueFrom (number : Nat) (text : List UInt8) : number ≤ valueFrom number text := by
  induction text generalizing number with
  | nil => exact le_rfl
  | cons byte text induction =>
    have later := induction (10 * number + (byte.toNat - 48))
    rw [valueFrom_cons]
    omega

theorem le_valueFrom_div (number : Nat) (byte : UInt8) (text : List UInt8) :
    number ≤ valueFrom number (byte :: text) / 10 := by
  have grows := le_valueFrom (10 * number + (byte.toNat - 48)) text
  rw [valueFrom_cons]
  omega

theorem toNat_sub_lt_ten {byte : UInt8} (digit : isDigit byte = true) : byte.toNat - 48 < 10 := by
  have range := isDigit_iff.mp digit
  omega

theorem value_pos_of_head {byte : UInt8} {text : List UInt8}
    (digit : isDigit byte = true) (nonzero : byte ≠ 48) :
    0 < value (byte :: text) := by
  have range := isDigit_iff.mp digit
  have different : byte.toNat ≠ 48 := fun equal =>
    nonzero (UInt8.toNat_inj.mp equal)
  have grows := le_valueFrom (10 * 0 + (byte.toNat - 48)) text
  rw [← valueFrom_zero, valueFrom_cons]
  omega

inductive Scan
  | ranOut
  | refused (rest : List UInt8)
  | read (number : Nat) (rest : List UInt8)
  deriving DecidableEq

def scan (limit : Nat) (stop : UInt8) : Nat → List UInt8 → Scan
  | _, [] => .ranOut
  | number, byte :: rest =>
    if isDigit byte = false then .refused (byte :: rest)
    else if limit < number then .refused (byte :: rest)
    else
      match rest with
      | [] => .ranOut
      | next :: later =>
        if next = stop then .read (10 * number + (byte.toNat - 48)) later
        else scan limit stop (10 * number + (byte.toNat - 48)) (next :: later)

variable {limit : Nat} {stop : UInt8} {number : Nat}

theorem scan_last {byte : UInt8} (digit : isDigit byte = true)
    (small : number ≤ limit) : scan limit stop number [byte] = .ranOut := by
  unfold scan
  rw [if_neg (by simp [digit]), if_neg (by omega)]

theorem scan_stop {byte : UInt8} {rest : List UInt8}
    (digit : isDigit byte = true) (small : number ≤ limit) :
    scan limit stop number (byte :: stop :: rest) =
      .read (10 * number + (byte.toNat - 48)) rest := by
  unfold scan
  rw [if_neg (by simp [digit]), if_neg (by omega)]
  exact if_pos rfl

theorem scan_more {byte next : UInt8} {rest : List UInt8}
    (digit : isDigit byte = true) (small : number ≤ limit) (other : next ≠ stop) :
    scan limit stop number (byte :: next :: rest) =
      scan limit stop (10 * number + (byte.toNat - 48)) (next :: rest) := by
  conv_lhs => unfold scan
  rw [if_neg (by simp [digit]), if_neg (by omega)]
  exact if_neg other

theorem scan_refused {byte : UInt8} {rest : List UInt8}
    (refuses : isDigit byte = false ∨ limit < number) :
    scan limit stop number (byte :: rest) = .refused (byte :: rest) := by
  unfold scan
  by_cases other : isDigit byte = false
  · exact if_pos other
  · rw [if_neg other, if_pos (refuses.resolve_left other)]

/-- A loop that goes the way of a scan ends with what it makes of the scan's end. -/
theorem loop_eq_scan {Result : Type*} (loop : Nat → List UInt8 → Result)
    (ending : Scan → Result) (empty : ∀ number, loop number [] = ending .ranOut)
    (refused : ∀ number byte rest, isDigit byte = false ∨ limit < number →
      loop number (byte :: rest) = ending (.refused (byte :: rest)))
    (round : ∀ number byte rest, isDigit byte = true → number ≤ limit → loop number (byte :: rest) =
        match rest with
        | [] => ending .ranOut
        | next :: later =>
          if next = stop then ending (.read (10 * number + (byte.toNat - 48)) later)
          else loop (10 * number + (byte.toNat - 48)) (next :: later))
    (number : Nat) (text : List UInt8) :
    loop number text = ending (scan limit stop number text) := by
  induction text generalizing number with
  | nil => exact empty number
  | cons byte text induction =>
    by_cases refuses : isDigit byte = false ∨ limit < number
    · rw [scan_refused refuses, refused number byte text refuses]
    · rw [not_or, Bool.not_eq_false, not_lt] at refuses
      obtain ⟨digit, small⟩ := refuses
      rw [round number byte text digit small]
      cases text with
      | nil => rw [scan_last digit small]
      | cons next text =>
        dsimp only
        split_ifs with stops
        · rw [stops, scan_stop digit small]
        · rw [scan_more digit small stops, induction]

theorem scan_digits {digits rest : List UInt8} (nonempty : digits ≠ [])
    (areDigits : ∀ byte ∈ digits, isDigit byte = true) (closed : stop ∉ digits.tail)
    (small : valueFrom number digits / 10 ≤ limit) :
    scan limit stop number (digits ++ stop :: rest) = .read (valueFrom number digits) rest := by
  induction digits generalizing number with
  | nil => exact absurd rfl nonempty
  | cons byte digits induction =>
    have digit := areDigits byte (by simp)
    have below : number ≤ limit := (le_valueFrom_div number byte digits).trans small
    cases digits with
    | nil => exact scan_stop digit below
    | cons next digits =>
      rw [List.cons_append, List.cons_append, scan_more digit below
        (fun equal => closed (by simp [equal]))]
      exact induction (by simp)
        (fun other member => areDigits other (List.mem_cons_of_mem _ member))
        (fun member => closed (List.mem_cons_of_mem _ member)) small

theorem scan_large {digits rest : List UInt8} (nonempty : digits ≠ [])
    (areDigits : ∀ byte ∈ digits, isDigit byte = true) (closed : stop ∉ digits.tail)
    (large : limit < valueFrom number digits / 10) :
    ∃ left, scan limit stop number (digits ++ stop :: rest) = .refused left := by
  induction digits generalizing number with
  | nil => exact absurd rfl nonempty
  | cons byte digits induction =>
    have digit := areDigits byte (by simp)
    by_cases exceeded : limit < number
    · exact ⟨_, scan_refused (.inr exceeded)⟩
    cases digits with
    | nil =>
      have last := toNat_sub_lt_ten digit
      rw [valueFrom_cons, valueFrom_nil] at large
      omega
    | cons next digits =>
      rw [List.cons_append, List.cons_append, scan_more digit (not_lt.mp exceeded)
        (fun equal => closed (by simp [equal]))]
      exact induction (by simp)
        (fun other member => areDigits other (List.mem_cons_of_mem _ member))
        (fun member => closed (List.mem_cons_of_mem _ member)) large

theorem scan_other {front rest : List UInt8} {byte : UInt8}
    (other : isDigit byte = false) (notStop : byte ≠ stop) (closed : stop ∉ front) :
    ∃ left, scan limit stop number (front ++ byte :: rest) = .refused left := by
  induction front generalizing number with
  | nil => exact ⟨_, scan_refused (.inl other)⟩
  | cons first front induction =>
    by_cases refuses : isDigit first = false ∨ limit < number
    · exact ⟨_, scan_refused refuses⟩
    rw [not_or, Bool.not_eq_false, not_lt] at refuses
    obtain ⟨digit, small⟩ := refuses
    rw [List.mem_cons, not_or] at closed
    obtain ⟨next, later, shape, goesOn⟩ : ∃ next later,
        front ++ byte :: rest = next :: later ∧ next ≠ stop := by
      cases front with
      | nil => exact ⟨byte, rest, rfl, notStop⟩
      | cons next front =>
        exact ⟨next, front ++ byte :: rest, rfl, fun equal => closed.2 (by simp [equal])⟩
    rw [List.cons_append, shape, scan_more digit small goesOn, ← shape]
    exact induction closed.2

theorem scan_read {text rest : List UInt8} {result : Nat}
    (reads : scan limit stop number text = .read result rest) :
    ∃ digits, digits ≠ [] ∧ (∀ byte ∈ digits, isDigit byte = true) ∧
      text = digits ++ stop :: rest ∧ result = valueFrom number digits ∧
      valueFrom number digits / 10 ≤ limit := by
  induction text generalizing number with
  | nil => cases reads
  | cons byte text induction =>
    by_cases refuses : isDigit byte = false ∨ limit < number
    · rw [scan_refused refuses] at reads
      cases reads
    rw [not_or, Bool.not_eq_false, not_lt] at refuses
    obtain ⟨digit, small⟩ := refuses
    cases text with
    | nil =>
      rw [scan_last digit small] at reads
      cases reads
    | cons next text =>
      by_cases stops : next = stop
      · subst stops
        rw [scan_stop digit small] at reads
        cases reads
        have last := toNat_sub_lt_ten digit
        refine ⟨[byte], by simp, by simpa using digit, rfl, rfl, ?_⟩
        rw [valueFrom_cons, valueFrom_nil]
        omega
      · rw [scan_more digit small stops] at reads
        obtain ⟨digits, -, areDigits, textEq, resultEq, bounded⟩ := induction reads
        refine ⟨byte :: digits, by simp, ?_, by rw [textEq]; rfl, resultEq, bounded⟩
        rintro other (- | ⟨-, member⟩)
        · exact digit
        · exact areDigits other member

theorem not_accumulates {byte : UInt8} {text : List UInt8}
    (refuses : isDigit byte = false ∨ limit < number) :
    ¬ ((∀ other ∈ byte :: text, isDigit other = true) ∧ stop ∉ text ∧
      valueFrom number (byte :: text) / 10 ≤ limit) := by
  rintro ⟨digits, -, small⟩
  have below := (le_valueFrom_div number byte text).trans small
  rcases refuses with other | large
  · rw [digits byte (by simp)] at other
    cases other
  · omega

theorem scan_eq_ranOut_iff {byte : UInt8} {text : List UInt8} :
    scan limit stop number (byte :: text) = .ranOut ↔
      (∀ other ∈ byte :: text, isDigit other = true) ∧ stop ∉ text ∧
        valueFrom number (byte :: text) / 10 ≤ limit := by
  induction text generalizing number byte with
  | nil =>
    by_cases refuses : isDigit byte = false ∨ limit < number
    · rw [scan_refused refuses]
      exact iff_of_false (by simp) (not_accumulates refuses)
    · rw [not_or, Bool.not_eq_false, not_lt] at refuses
      obtain ⟨digit, small⟩ := refuses
      rw [scan_last digit small]
      have last := toNat_sub_lt_ten digit
      refine iff_of_true rfl ⟨by simpa using digit, by simp, ?_⟩
      rw [valueFrom_cons, valueFrom_nil]
      omega
  | cons next text induction =>
    by_cases refuses : isDigit byte = false ∨ limit < number
    · rw [scan_refused refuses]
      exact iff_of_false (by simp) (not_accumulates refuses)
    · rw [not_or, Bool.not_eq_false, not_lt] at refuses
      obtain ⟨digit, small⟩ := refuses
      by_cases stops : next = stop
      · subst stops
        rw [scan_stop digit small]
        exact iff_of_false (by simp) (by simp)
      · rw [scan_more digit small stops, induction, ← valueFrom_cons]
        simp [digit, Ne.symm stops]

end DecimalText
