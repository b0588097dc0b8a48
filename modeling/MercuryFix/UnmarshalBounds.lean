import MercuryFix.IpcFrames

/-!
# The bounds of unmarshalling

`vunmarshal` compares its position with the length behind each read.  So a number
or a string of which the bytes are not there is read from outside of the buffer,
and a value that ends with the buffer ends the loop whatever the format still asks
for.  The memory here is the buffer and nothing else: a read at its end or beyond
gives `none`.
-/

namespace MercuryFix

open ByteBlock

variable {Double : Type}

section Layout

def Specifier.Inside (rest : List UInt8) : Specifier → Prop
  | string => 0 ∈ rest
  | byte => 1 ≤ rest.length
  | word => 2 ≤ rest.length
  | long => 4 ≤ rest.length
  | quad => 8 ≤ rest.length
  | float => 4 ≤ rest.length
  | double => 8 ≤ rest.length

instance (rest : List UInt8) (specifier : Specifier) :
    Decidable (specifier.Inside rest) :=
  match specifier with
  | .string => inferInstanceAs (Decidable ((0 : UInt8) ∈ rest))
  | .byte => inferInstanceAs (Decidable (1 ≤ rest.length))
  | .word => inferInstanceAs (Decidable (2 ≤ rest.length))
  | .long => inferInstanceAs (Decidable (4 ≤ rest.length))
  | .quad => inferInstanceAs (Decidable (8 ≤ rest.length))
  | .float => inferInstanceAs (Decidable (4 ≤ rest.length))
  | .double => inferInstanceAs (Decidable (8 ≤ rest.length))

def Specifier.slot (rest : List UInt8) : Specifier → Nat
  | string => (cString rest).length + 1
  | byte => 8
  | word => 16
  | long => 32
  | quad => 64
  | float => 32
  | double => 64

def Specifier.Complete (rest : List UInt8) (specifier : Specifier) : Prop :=
  specifier.Inside rest ∧ specifier.slot rest ≤ rest.length

/-- The data end before the format does: a specifier is left for which they do not
hold the whole slot. -/
def DataEnds : List UInt8 → List Directive → Prop
  | rest, ⟨_, some (.specifier specifier)⟩ :: later =>
    ¬ specifier.Complete rest ∨ DataEnds (rest.drop (specifier.slot rest)) later
  | _, _ => False

/-- Each specifier finds the bytes that it reads, up to the first one for which the
data do not hold the whole slot. -/
def Covered : List UInt8 → List Directive → Prop
  | rest, ⟨_, some (.specifier specifier)⟩ :: later =>
    specifier.Inside rest ∧
      (specifier.slot rest ≤ rest.length → Covered (rest.drop (specifier.slot rest)) later)
  | _, _ => True

theorem covered_nil (later : List Directive) : Covered [] later ↔ ¬ DataEnds [] later := by
  rcases later with _ | ⟨⟨sign, _ | _ | _ | specifier | _⟩, later⟩
  case cons.some.specifier =>
    have outside : ¬ specifier.Inside [] := by
      cases specifier <;> simp [Specifier.Inside]
    simp [Covered, DataEnds, Specifier.Complete, outside]
  all_goals simp [Covered, DataEnds]

end Layout

section Read

variable (ieee : Ieee754 Double) (unSigned : Bool)

theorem Specifier.read_inside {rest : List UInt8} {specifier : Specifier}
    (inside : specifier.Inside rest) :
    ∃ value, specifier.read ieee unSigned rest = some (value, specifier.slot rest) := by
  cases specifier with
  | string => exact ⟨_, if_pos inside⟩
  | float => exact ⟨_, if_pos inside⟩
  | double => exact ⟨_, if_pos inside⟩
  | byte | word | long | quad =>
    simp only [Inside] at inside
    simp [read, slot, readInteger, inside]

theorem Specifier.read_outside {rest : List UInt8} {specifier : Specifier}
    (outside : ¬ specifier.Inside rest) :
    specifier.read ieee unSigned rest = none := by
  cases specifier with
  | string => exact if_neg outside
  | float => exact if_neg outside
  | double => exact if_neg outside
  | byte | word | long | quad =>
    simp only [Inside] at outside
    simp [read, readInteger, outside]

end Read

section Loop

variable (ieee : Ieee754 Double)

/-- A run stays inside of the buffer, and it returns -1 if the data end before the
format does. -/
def Bounded (run : Option (Int × List (Value Double))) (ends : Prop) : Prop :=
  ∃ result values, run = some (result, values) ∧ (ends → result = -1)

theorem bounded_some {result : Int} {values : List (Value Double)} {ends : Prop} :
    Bounded (some (result, values)) ends ↔ (ends → result = -1) := by
  constructor
  · rintro ⟨_, _, same, failed⟩
    cases same
    exact failed
  · intro failed
    exact ⟨result, values, rfl, failed⟩

theorem not_bounded_none {ends : Prop} :
    ¬ Bounded (none : Option (Int × List (Value Double))) ends := by
  rintro ⟨_, _, same, _⟩
  cases same

theorem vunmarshalLoop_bounded (buf : List UInt8) (later : List Directive)
    {cnt : Nat} (inBuffer : cnt < buf.length) (unSigned : Bool) (values : List (Value Double)) :
    Bounded (vunmarshalLoop ieee buf buf.length later cnt unSigned values)
        (DataEnds (buf.drop cnt) later) ↔
      Covered (buf.drop cnt) later := by
  induction later generalizing cnt unSigned values with
  | nil => simp [vunmarshalLoop, bounded_some, DataEnds, Covered]
  | cons directive later induction =>
    obtain ⟨sign, _ | _ | _ | specifier | _⟩ := directive
    case cons.some.specifier =>
      by_cases inside : specifier.Inside (buf.drop cnt)
      case neg =>
        simp [vunmarshalLoop, Specifier.read_outside _ _ inside, not_bounded_none, Covered, inside]
      obtain ⟨value, found⟩ := Specifier.read_inside ieee (sign.getD unSigned) inside
      have left : (buf.drop cnt).length = buf.length - cnt := List.length_drop
      simp only [vunmarshalLoop, found, Option.bind_eq_bind, Option.bind_some]
      simp only [Covered, DataEnds, Specifier.Complete, inside, true_and, List.drop_drop]
      generalize specifier.slot (buf.drop cnt) = slot
      rcases Nat.lt_trichotomy buf.length (cnt + slot) with beyond | fit | room
      · have short : ¬ slot ≤ (buf.drop cnt).length := by omega
        rw [if_neg (by omega), if_pos beyond, bounded_some]
        simp only [short, not_false_eq_true, true_or, false_implies, implies_true]
      · -- The loop ends here, so that no specifier may follow.
        have whole : slot ≤ (buf.drop cnt).length := by omega
        rw [if_pos fit, bounded_some, ← fit, List.drop_length]
        simp only [whole, not_true_eq_false, false_or, forall_const]
        rw [covered_nil]
        constructor
        · intro failed ends
          have negative := failed ends
          omega
        · intro whole ends
          exact absurd ends whole
      · have whole : slot ≤ (buf.drop cnt).length := by omega
        rw [if_neg (by omega), if_neg (by omega)]
        simp only [whole, not_true_eq_false, false_or, forall_const]
        exact induction room _ _
    all_goals simp [vunmarshalLoop, bounded_some, DataEnds, Covered]

/-- `vunmarshal` of a buffer, whatever it holds, stays inside of it and returns -1
if the data end before the format does exactly if each specifier that is reached
finds its bytes. -/
theorem vunmarshal_bounded_iff (buf format : List UInt8) :
    Bounded (vunmarshal ieee buf buf.length format)
        (DataEnds buf (directives format)) ↔
      Covered buf (directives format) := by
  rw [vunmarshal]
  by_cases empty : buf.length < 1
  · have nothing : buf = [] := List.length_eq_zero_iff.mp (by omega)
    subst nothing
    rw [if_pos empty, bounded_some, covered_nil]
    simp
  · rw [if_neg empty]
    exact vunmarshalLoop_bounded ieee buf (directives format) (by omega) true []

/-- A word of which one byte is there and a string without its terminator are read
from outside of the buffer.  With a byte more in the format than in the buffer one
value is returned, and from an empty buffer none. -/
theorem vunmarshal_out_of_bounds :
    vunmarshal noFloats [0x41] 1 (ascii ['%', 'w']) = none ∧
      vunmarshal noFloats [0x41] 1 (ascii ['%', 's']) = none ∧
      (DataEnds (List.replicate 8 0)
          (directives (ascii ['%', 'u', 'b', '%', 'b'])) ∧
        vunmarshal noFloats (List.replicate 8 0) 8
            (ascii ['%', 'u', 'b', '%', 'b']) = some (1, [.integer 0])) ∧
      DataEnds [] (directives (ascii ['%', 'b'])) ∧
        vunmarshal noFloats [] 0 (ascii ['%', 'b']) = some (0, []) := by
  have noByte : ¬ Specifier.Complete [] .byte := by
    rintro ⟨inside, -⟩
    exact absurd inside (by decide)
  have noMore : ¬ Specifier.Complete
      ((List.replicate 8 0).drop (Specifier.slot (List.replicate 8 0) .byte))
      .byte := noByte
  exact ⟨rfl, rfl, ⟨.inr (.inl noMore), rfl⟩, .inl noByte, rfl⟩

end Loop

end MercuryFix
