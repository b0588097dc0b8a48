import MercuryFix.UnmarshalBounds

/-!
# White space in formats

A format may have white space around its specifiers.  `vmarshal_size` passes over
it.  `vmarshal` does so too, but a buffer that has been filled ends its loop, and
then it looks for the terminator right behind the last specifier.  `vunmarshal`
takes white space for an error unless the data have ended in front of it.
-/

namespace MercuryFix

open ByteBlock

variable {Double : Type}

section Formats

def FormatItem.isDirective : FormatItem → Bool
  | blank _ => false
  | directive .. => true

def withoutBlanks (items : List FormatItem) : List FormatItem := items.filter FormatItem.isDirective

@[simp]
theorem isDirective_blank (whitespace : Whitespace) :
    (FormatItem.blank whitespace).isDirective = false :=
  rfl

@[simp]
theorem withoutBlanks_blank (whitespace : Whitespace) (items : List FormatItem) :
    withoutBlanks (.blank whitespace :: items) = withoutBlanks items :=
  rfl

end Formats

section Size

end Size

section Write

variable {ieee : Ieee754 Double}

variable {items : List FormatItem}

end Write

section Read

variable {ieee : Ieee754 Double} {memory : List UInt8} {len : Nat}

end Read


end MercuryFix
