import Mathlib.Data.Nat.Bitwise
import Mathlib.Data.Nat.Log

/-!
# Smearing bits to the right

Each round copies the bits of a number to the right, over twice the distance of the
round before.  So a bit is set behind some rounds if one of the bits was set that are
less than a power of two to the left of it.  When this reaches the highest bit, all
bits below it are set, and the next number is a power of two.
-/

namespace BitSmearing

def smeared (rounds number : Nat) : Nat :=
  (List.range rounds).foldl (fun number round => number ||| number >>> 2 ^ round) number

theorem smeared_succ (rounds number : Nat) : smeared (rounds + 1) number =
      smeared rounds number ||| smeared rounds number >>> 2 ^ rounds := by
  simp [smeared, List.range_succ]

theorem testBit_smeared_iff (rounds number place : Nat) :
    (smeared rounds number).testBit place = true ↔
      ∃ distance < 2 ^ rounds, number.testBit (place + distance) = true := by
  induction rounds generalizing place with
  | zero => simp [smeared]
  | succ rounds induction =>
    rw [smeared_succ, Nat.testBit_or, Nat.testBit_shiftRight, Bool.or_eq_true,
      induction, induction, pow_succ]
    constructor
    · rintro (⟨distance, less, set⟩ | ⟨distance, less, set⟩)
      · exact ⟨distance, by omega, set⟩
      · refine ⟨2 ^ rounds + distance, by omega, ?_⟩
        rwa [← Nat.add_assoc, Nat.add_comm place]
    · rintro ⟨distance, less, set⟩
      by_cases near : distance < 2 ^ rounds
      · exact .inl ⟨distance, near, set⟩
      · refine .inr ⟨distance - 2 ^ rounds, by omega, ?_⟩
        rwa [show 2 ^ rounds + place + (distance - 2 ^ rounds) = place + distance by
          omega]

theorem smeared_eq {rounds number : Nat} (small : number < 2 ^ 2 ^ rounds) :
    smeared rounds number = 2 ^ Nat.clog 2 (number + 1) - 1 := by
  have reached : Nat.clog 2 (number + 1) ≤ 2 ^ rounds := Nat.clog_le_of_le_pow small
  apply Nat.eq_of_testBit_eq
  intro place
  rw [Nat.testBit_two_pow_sub_one, Bool.eq_iff_iff, testBit_smeared_iff, decide_eq_true_iff]
  constructor
  · rintro ⟨distance, -, set⟩
    have below : 2 ^ (place + distance) < number + 1 :=
      Nat.lt_succ_of_le (Nat.ge_two_pow_of_testBit set)
    have inside := (Nat.lt_clog_iff_pow_lt Nat.one_lt_two).mpr below
    omega
  · intro inside
    let highest := Nat.clog 2 (number + 1) - 1
    have atMost : 2 ^ highest < number + 1 := Nat.pow_lt_of_lt_clog (by omega)
    have above : number + 1 ≤ 2 ^ (highest + 1) := by
      have covers := Nat.le_pow_clog Nat.one_lt_two (number + 1)
      rwa [show highest + 1 = Nat.clog 2 (number + 1) by omega]
    refine ⟨highest - place, by omega, ?_⟩
    rw [show place + (highest - place) = highest by omega]
    exact Nat.testBit_of_two_pow_le_and_two_pow_add_one_gt (by omega) (by omega)

theorem smeared_add_one {rounds number : Nat} (small : number < 2 ^ 2 ^ rounds) :
    smeared rounds number + 1 = 2 ^ Nat.clog 2 (number + 1) := by
  have positive : 0 < 2 ^ Nat.clog 2 (number + 1) := Nat.two_pow_pos _
  rw [smeared_eq small]
  omega

end BitSmearing
