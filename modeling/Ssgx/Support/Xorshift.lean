import Mathlib.Logic.Function.Basic
import Mathlib.Logic.Function.Iterate

/-!
# Xorshift

A word combined with a shift of itself by exclusive or. Where the shift is not by zero, no two words
have the same image (`xorShiftLeft_injective`, `xorShiftRight_injective`): the bits of a word that
is its own shift are all zero. `xorshift128` is the linear step of the generators of two words; it
has no two states with one successor, and only zero steps to zero.
-/

set_option autoImplicit false

namespace Ssgx.Support

variable {w : Nat}

/-- A word that is its own shift to the left is zero. -/
theorem eq_zero_of_shiftLeft {x : BitVec w} {n : Nat} (hn : 0 < n) (h : x = x <<< n) : x = 0#w := by
  apply BitVec.eq_of_getLsbD_eq
  intro i hi
  -- each bit is one below it, down to those that were shifted in
  induction i using Nat.strongRecOn with
  | _ i ih =>
      rw [h, BitVec.getLsbD_shiftLeft, BitVec.getLsbD_zero]
      by_cases hlow : i < n
      · simp [hlow]
      · have hbelow := ih (i - n) (by omega) (by omega)
        rw [BitVec.getLsbD_zero] at hbelow
        rw [hbelow, Bool.and_false]

/-- A word that is its own shift to the right is zero. -/
theorem eq_zero_of_shiftRight {x : BitVec w} {n : Nat} (hn : 0 < n) (h : x = x >>> n) :
    x = 0#w := by
  apply BitVec.eq_of_getLsbD_eq
  intro i hi
  -- each bit is one above it, up to those that were shifted in
  induction hrest : w - i using Nat.strongRecOn generalizing i with
  | _ rest ih =>
      rw [h, BitVec.getLsbD_ushiftRight, BitVec.getLsbD_zero]
      by_cases hhigh : n + i < w
      · have habove := ih (w - (n + i)) (by omega) (n + i) hhigh rfl
        rw [habove, BitVec.getLsbD_zero]
      · exact BitVec.getLsbD_of_ge x (n + i) (Nat.not_lt.1 hhigh)

/-- A word and its shift to the left. -/
def xorShiftLeft (n : Nat) (x : BitVec w) : BitVec w := x ^^^ (x <<< n)

/-- A word and its shift to the right. -/
def xorShiftRight (n : Nat) (x : BitVec w) : BitVec w := x ^^^ (x >>> n)

theorem xor_xor_xor_comm (a b c d : BitVec w) :
    (a ^^^ b) ^^^ (c ^^^ d) = (a ^^^ c) ^^^ (b ^^^ d) := by
  ac_rfl

theorem xorShiftLeft_injective {n : Nat} (hn : 0 < n) :
    Function.Injective (xorShiftLeft n : BitVec w → BitVec w) := by
  intro x y h
  have hzero : (x ^^^ y) ^^^ (x ^^^ y) <<< n = 0#w := by
    rw [BitVec.shiftLeft_xor_distrib, xor_xor_xor_comm]
    exact BitVec.xor_eq_zero_iff.2 h
  exact BitVec.xor_eq_zero_iff.1 (eq_zero_of_shiftLeft hn (BitVec.xor_eq_zero_iff.1 hzero))

theorem xorShiftRight_injective {n : Nat} (hn : 0 < n) :
    Function.Injective (xorShiftRight n : BitVec w → BitVec w) := by
  intro x y h
  have hzero : (x ^^^ y) ^^^ (x ^^^ y) >>> n = 0#w := by
    rw [BitVec.ushiftRight_xor_distrib, xor_xor_xor_comm]
    exact BitVec.xor_eq_zero_iff.2 h
  exact BitVec.xor_eq_zero_iff.1 (eq_zero_of_shiftRight hn (BitVec.xor_eq_zero_iff.1 hzero))

/-! ## Generators of two words -/

/-- The step: the second word moves to the front, and a new one comes from both. -/
def xorshift128 (a b c : Nat) (s : BitVec w × BitVec w) : BitVec w × BitVec w :=
  (s.2, xorShiftRight b (xorShiftLeft a s.1) ^^^ xorShiftRight c s.2)

/-- **No two states have one successor.** -/
theorem xorshift128_injective {a b : Nat} (ha : 0 < a) (hb : 0 < b) (c : Nat) :
    Function.Injective (xorshift128 a b c : BitVec w × BitVec w → BitVec w × BitVec w) := by
  rintro ⟨x, y⟩ ⟨x', y'⟩ h
  obtain ⟨hsecond, hnew⟩ := Prod.mk.inj h
  obtain rfl : y = y' := hsecond
  have hleft := xorShiftRight_injective hb ((BitVec.xor_left_inj _).1 hnew)
  have hfirst : x = x' := xorShiftLeft_injective ha hleft
  rw [hfirst]

theorem xorshift128_zero (a b c : Nat) : xorshift128 a b c (0#w, 0#w) = (0#w, 0#w) := by
  simp [xorshift128, xorShiftLeft, xorShiftRight]

/-- **Only zero leads to zero.** -/
theorem xorshift128_iterate_eq_zero_iff {a b : Nat} (ha : 0 < a) (hb : 0 < b) (c n : Nat)
    (s : BitVec w × BitVec w) :
    (xorshift128 a b c)^[n] s = (0#w, 0#w) ↔ s = (0#w, 0#w) := by
  have hzero : (xorshift128 a b c)^[n] (0#w, 0#w) = (0#w, 0#w) :=
    Function.iterate_fixed (xorshift128_zero a b c) n
  constructor
  · intro h
    exact (xorshift128_injective ha hb c).iterate n (h.trans hzero.symm)
  · rintro rfl
    exact hzero

end Ssgx.Support
