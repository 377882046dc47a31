import Mathlib.Algebra.Order.Field.Rat
import Mathlib.Data.Rat.Lemmas
import Mathlib.Tactic.FieldSimp
import Mathlib.Tactic.Linarith
import Mathlib.Tactic.Positivity

/-!
# Rounding

The rounding modes of decimal arithmetic. `magnitude` rounds a quotient of natural numbers to a
natural number; the sign matters to two modes only. `round` rounds a rational number to an integer,
`roundAt` to a multiple of a power of ten.

A number that is rounded to one place and then to a coarser one is not always the number rounded to
the coarser one at once: the first rounding may land on a tie that the second one resolves.
`magnitude_magnitude_iff` says exactly when.
-/

set_option autoImplicit false

namespace Ssgx.Support

/-- The rounding modes. -/
inductive Rounding where
  | up
  | down
  | ceiling
  | floor
  | halfUp
  | halfDown
  | halfEven
  | zeroFiveUp
  | trunc
deriving DecidableEq

namespace Rounding

/-- Whether the magnitude `q + r / m` is rounded to `q + 1`. -/
def increments (mode : Rounding) (negative : Bool) (q r m : Nat) : Prop :=
  match mode with
  | up => r ≠ 0
  | down => False
  | ceiling => negative = false ∧ r ≠ 0
  | floor => negative = true ∧ r ≠ 0
  | halfUp => m ≤ 2 * r
  | halfDown => m < 2 * r
  | halfEven => m < 2 * r ∨ (m = 2 * r ∧ q % 2 = 1)
  | zeroFiveUp => r ≠ 0 ∧ q % 5 = 0
  | trunc => False

instance (mode : Rounding) (negative : Bool) (q r m : Nat) :
    Decidable (mode.increments negative q r m) :=
  match mode with
  | up => inferInstanceAs (Decidable (_ ≠ _))
  | down => inferInstanceAs (Decidable False)
  | ceiling => inferInstanceAs (Decidable (_ ∧ _))
  | floor => inferInstanceAs (Decidable (_ ∧ _))
  | halfUp => inferInstanceAs (Decidable (_ ≤ _))
  | halfDown => inferInstanceAs (Decidable (_ < _))
  | halfEven => inferInstanceAs (Decidable (_ ∨ _))
  | zeroFiveUp => inferInstanceAs (Decidable (_ ∧ _))
  | trunc => inferInstanceAs (Decidable False)

/-- The magnitude `p / m`, rounded. -/
def magnitude (mode : Rounding) (negative : Bool) (p m : Nat) : Nat :=
  if mode.increments negative (p / m) (p % m) m then p / m + 1 else p / m

variable (mode : Rounding) (negative : Bool)

theorem not_increments_zero (q : Nat) {m : Nat} (hm : 0 < m) :
    ¬ mode.increments negative q 0 m := by
  cases mode with
  | up => simp [increments]
  | down => simp [increments]
  | ceiling => simp [increments]
  | floor => simp [increments]
  | halfUp => simp [increments]; omega
  | halfDown => simp [increments]
  | halfEven => simp [increments]; omega
  | zeroFiveUp => simp [increments]
  | trunc => simp [increments]

/-- A whole number stays. -/
theorem magnitude_of_dvd {p m : Nat} (hm : 0 < m) (h : m ∣ p) :
    mode.magnitude negative p m = p / m := by
  rw [magnitude, Nat.mod_eq_zero_of_dvd h, if_neg (mode.not_increments_zero negative _ hm)]

theorem le_magnitude (p m : Nat) : p / m ≤ mode.magnitude negative p m := by
  simp only [magnitude]
  split_ifs
  · exact Nat.le_succ _
  · exact Nat.le_refl _

theorem magnitude_le (p m : Nat) : mode.magnitude negative p m ≤ p / m + 1 := by
  simp only [magnitude]
  split_ifs
  · exact Nat.le_refl _
  · exact Nat.le_succ _

/-- A quotient below a whole number is not rounded beyond it. -/
theorem magnitude_le_of_lt {p m n : Nat} (h : p < n * m) : mode.magnitude negative p m ≤ n :=
  (mode.magnitude_le negative p m).trans (Nat.div_lt_of_lt_mul (Nat.mul_comm n m ▸ h))

/-- Rounding up, from what is known of the remainder: whether there is one (`rest`), and whether it
is at least half of the divisor, more than half of it, or just half of it. -/
def IncrementsFor (q : Nat) (rest atLeastHalf aboveHalf half : Prop) : Prop :=
  match mode with
  | up => rest
  | down => False
  | ceiling => negative = false ∧ rest
  | floor => negative = true ∧ rest
  | halfUp => atLeastHalf
  | halfDown => aboveHalf
  | halfEven => aboveHalf ∨ (half ∧ q % 2 = 1)
  | zeroFiveUp => rest ∧ q % 5 = 0
  | trunc => False

theorem increments_iff {q r m : Nat} {rest atLeastHalf aboveHalf half : Prop} (hrest : r ≠ 0 ↔ rest)
    (hle : m ≤ 2 * r ↔ atLeastHalf) (hlt : m < 2 * r ↔ aboveHalf) (heq : m = 2 * r ↔ half) :
    mode.increments negative q r m ↔
      mode.IncrementsFor negative q rest atLeastHalf aboveHalf half := by
  cases mode with
  | up => exact hrest
  | down => exact Iff.rfl
  | ceiling => exact and_congr_right fun _ => hrest
  | floor => exact and_congr_right fun _ => hrest
  | halfUp => exact hle
  | halfDown => exact hlt
  | halfEven => exact or_congr hlt (and_congr_left fun _ => heq)
  | zeroFiveUp => exact and_congr_left fun _ => hrest
  | trunc => exact Iff.rfl

/-- The rounded quotient depends on the quotient alone. -/
theorem magnitude_mul_mul {k : Nat} (hk : 0 < k) (p m : Nat) :
    mode.magnitude negative (k * p) (k * m) = mode.magnitude negative p m := by
  have hrest : k * (p % m) ≠ 0 ↔ p % m ≠ 0 := by
    rw [Nat.mul_ne_zero_iff]
    exact and_iff_right hk.ne'
  have hle : k * m ≤ 2 * (k * (p % m)) ↔ m ≤ 2 * (p % m) := by
    rw [Nat.mul_left_comm]
    exact Nat.mul_le_mul_left_iff hk
  have hlt : k * m < 2 * (k * (p % m)) ↔ m < 2 * (p % m) := by
    rw [Nat.mul_left_comm]
    exact Nat.mul_lt_mul_left hk
  have heq : k * m = 2 * (k * (p % m)) ↔ m = 2 * (p % m) := by
    rw [Nat.mul_left_comm]
    exact Nat.mul_right_inj hk.ne'
  have hscale : mode.increments negative (p / m) (k * (p % m)) (k * m) ↔
      mode.increments negative (p / m) (p % m) m := by
    rw [mode.increments_iff negative hrest hle hlt heq]
    exact (mode.increments_iff negative Iff.rfl Iff.rfl Iff.rfl Iff.rfl).symm
  simp only [magnitude]
  rw [Nat.mul_div_mul_left _ _ hk, Nat.mul_mod_mul_left]
  simp only [hscale]

/-! ## Rounding twice -/

/-- The first rounding of `q + r / m` lands on a tie between multiples of `M`, and the second one
does not resolve it towards the side that the number was on. -/
def MissesAtTie (q r m M : Nat) : Prop :=
  match mode with
  | halfUp => 2 * (q % M + 1) = M ∧ m ≤ 2 * r
  | halfDown => 2 * (q % M) = M ∧ 0 < r ∧ 2 * r ≤ m
  | halfEven =>
      (2 * (q % M) = M ∧ 0 < r ∧ ¬ halfEven.increments false q r m ∧ q / M % 2 = 0) ∨
        (2 * (q % M + 1) = M ∧ halfEven.increments false q r m ∧ q / M % 2 = 1)
  | _ => False

/-- A quotient with a remainder against a whole number. -/
theorem mul_le_add_mul_iff {r m : Nat} (hr : r < m) (h t : Nat) : m * h ≤ r + m * t ↔ h ≤ t := by
  constructor
  · intro hle
    by_contra hlt
    have hmul : m * (t + 1) ≤ m * h := Nat.mul_le_mul_left m (by omega)
    rw [Nat.mul_succ] at hmul
    omega
  · intro hle
    exact (Nat.mul_le_mul_left m hle).trans (Nat.le_add_left _ _)

theorem add_mul_le_mul_iff {r m : Nat} (hr : r < m) (h t : Nat) :
    r + m * t ≤ m * h ↔ t < h ∨ (t = h ∧ r = 0) := by
  constructor
  · intro hle
    rcases Nat.lt_trichotomy t h with hlt | rfl | hgt
    · exact .inl hlt
    · exact .inr ⟨rfl, by omega⟩
    · have hmul : m * (h + 1) ≤ m * t := Nat.mul_le_mul_left m hgt
      rw [Nat.mul_succ] at hmul
      omega
  · rintro (hlt | ⟨rfl, rfl⟩)
    · have hmul : m * (t + 1) ≤ m * h := Nat.mul_le_mul_left m hlt
      rw [Nat.mul_succ] at hmul
      omega
    · exact (Nat.zero_add _).le

/-- When a number with a remainder at both places is rounded up at the coarser one. -/
theorem increments_add_mul_iff {r m : Nat} (hr : r < m) (Q t h : Nat) :
    mode.increments negative Q (r + m * t) (m * (2 * h)) ↔
      mode.IncrementsFor negative Q (r ≠ 0 ∨ t ≠ 0) (h ≤ t) (h < t ∨ (h = t ∧ r ≠ 0))
        (h = t ∧ r = 0) := by
  have hrest : r + m * t ≠ 0 ↔ r ≠ 0 ∨ t ≠ 0 := by
    have hmul : m * t = 0 ↔ t = 0 := by
      rw [Nat.mul_eq_zero]
      exact or_iff_right (by omega)
    omega
  have hle : m * (2 * h) ≤ 2 * (r + m * t) ↔ h ≤ t := by
    rw [Nat.mul_left_comm, Nat.mul_le_mul_left_iff (by decide), mul_le_add_mul_iff hr]
  have hge : 2 * (r + m * t) ≤ m * (2 * h) ↔ t < h ∨ (t = h ∧ r = 0) := by
    rw [Nat.mul_left_comm m, Nat.mul_le_mul_left_iff (by decide), add_mul_le_mul_iff hr]
  have hlt : m * (2 * h) < 2 * (r + m * t) ↔ h < t ∨ (h = t ∧ r ≠ 0) := by
    rw [← not_le, hge]
    omega
  have heq : m * (2 * h) = 2 * (r + m * t) ↔ h = t ∧ r = 0 := by
    rw [le_antisymm_iff, hle, hge]
    omega
  exact mode.increments_iff negative hrest hle hlt heq

/-- A quotient is rounded up by two roundings. -/
def IncrementsTwice (q r m M : Nat) : Prop :=
  (mode.increments negative q r m ∧
      (q % M + 1 = M ∨ mode.increments negative (q / M) (q % M + 1) M)) ∨
    (¬ mode.increments negative q r m ∧ mode.increments negative (q / M) (q % M) M)

instance (q r m M : Nat) : Decidable (mode.IncrementsTwice negative q r m M) :=
  inferInstanceAs (Decidable (_ ∨ _))

/-- The number that two roundings give. -/
theorem magnitude_magnitude (p m : Nat) {M : Nat} (hM : 0 < M) :
    mode.magnitude negative (mode.magnitude negative p m) M =
      if mode.IncrementsTwice negative (p / m) (p % m) m M then p / m / M + 1 else p / m / M := by
  have hq : M * (p / m / M) + p / m % M = p / m := Nat.div_add_mod _ _
  have ht : p / m % M < M := Nat.mod_lt _ hM
  have hfirst : mode.magnitude negative p m =
      if mode.increments negative (p / m) (p % m) m then p / m + 1 else p / m := rfl
  rw [hfirst]
  by_cases hinc : mode.increments negative (p / m) (p % m) m
  · rw [if_pos hinc]
    by_cases hcarry : p / m % M + 1 = M
    · have hnext : p / m + 1 = M * (p / m / M + 1) := by
        rw [Nat.mul_succ]
        omega
      have htwice : mode.IncrementsTwice negative (p / m) (p % m) m M := .inl ⟨hinc, .inl hcarry⟩
      rw [if_pos htwice, hnext, mode.magnitude_of_dvd negative hM (Nat.dvd_mul_right _ _),
        Nat.mul_div_cancel_left _ hM]
    · have hdiv : (p / m + 1) / M = p / m / M ∧ (p / m + 1) % M = p / m % M + 1 :=
        (Nat.div_mod_unique hM).2 ⟨by omega, by omega⟩
      have htwice : mode.IncrementsTwice negative (p / m) (p % m) m M ↔
          mode.increments negative (p / m / M) (p / m % M + 1) M := by
        simp [IncrementsTwice, hinc, hcarry]
      rw [magnitude, hdiv.1, hdiv.2]
      exact if_congr htwice.symm rfl rfl
  · have htwice : mode.IncrementsTwice negative (p / m) (p % m) m M ↔
        mode.increments negative (p / m / M) (p / m % M) M := by
      simp [IncrementsTwice, hinc]
    rw [if_neg hinc, magnitude]
    exact if_congr htwice.symm rfl rfl

/-- **When rounding twice is rounding once.** Exactly where the first rounding does not land on a
tie that the second one resolves the wrong way. -/
theorem magnitude_magnitude_iff {p m h : Nat} (hm : 0 < m) (hh : 0 < h) (hfive : 5 ∣ h) :
    mode.magnitude negative (mode.magnitude negative p m) (2 * h) =
        mode.magnitude negative p (m * (2 * h)) ↔
      ¬ mode.MissesAtTie (p / m) (p % m) m (2 * h) := by
  have hr : p % m < m := Nat.mod_lt p hm
  have hq : 2 * h * (p / m / (2 * h)) + p / m % (2 * h) = p / m := Nat.div_add_mod _ _
  have ht : p / m % (2 * h) < 2 * h := Nat.mod_lt _ (by omega)
  have hlast : p / m % (2 * h) % 5 = p / m % 5 := Nat.mod_mod_of_dvd _ (hfive.mul_left 2)
  have honce : mode.magnitude negative p (m * (2 * h)) =
      if mode.increments negative (p / m / (2 * h)) (p % m + m * (p / m % (2 * h))) (m * (2 * h))
      then p / m / (2 * h) + 1 else p / m / (2 * h) := by
    rw [magnitude, ← Nat.div_div_eq_div_mul, Nat.mod_mul]
  have hsame : ∀ (P R : Prop) [Decidable P] [Decidable R] (n : Nat),
      (if P then n + 1 else n) = (if R then n + 1 else n) ↔ (P ↔ R) := by
    intro P R _ _ n
    by_cases hP : P
    · by_cases hR : R
      · simp [hP, hR]
      · simp [hP, hR]
    · by_cases hR : R
      · simp [hP, hR]
      · simp [hP, hR]
  rw [magnitude_magnitude mode negative p m (by omega), honce, hsame,
    increments_add_mul_iff mode negative hr]
  simp only [IncrementsTwice]
  clear honce hsame
  generalize p % m = r at *
  generalize p / m = q at *
  generalize hdiv : q / (2 * h) = Q at *
  generalize hmod : q % (2 * h) = t at *
  cases mode with
  | up =>
      simp only [increments, IncrementsFor, MissesAtTie, not_false_eq_true, iff_true]
      omega
  | down => simp [increments, IncrementsFor, MissesAtTie]
  | ceiling =>
      simp only [increments, IncrementsFor, MissesAtTie, not_false_eq_true, iff_true]
      cases negative with
      | true => simp
      | false =>
          simp only [true_and]
          omega
  | floor =>
      simp only [increments, IncrementsFor, MissesAtTie, not_false_eq_true, iff_true]
      cases negative with
      | true =>
          simp only [true_and]
          omega
      | false => simp
  | halfUp =>
      simp only [increments, IncrementsFor, MissesAtTie, hmod]
      omega
  | halfDown =>
      simp only [increments, IncrementsFor, MissesAtTie, hmod]
      omega
  | halfEven =>
      -- the two halves of the condition belong to the two outcomes of the first rounding
      by_cases hup : m < 2 * r ∨ (m = 2 * r ∧ q % 2 = 1)
      · simp only [increments, IncrementsFor, MissesAtTie, hdiv, hmod, hup, true_and,
          not_true_eq_false, false_and, or_false, and_false, false_or]
        omega
      · simp only [increments, IncrementsFor, MissesAtTie, hdiv, hmod, hup, not_false_eq_true,
          true_and, false_and, false_or, and_false, or_false]
        omega
  | zeroFiveUp =>
      simp only [increments, IncrementsFor, MissesAtTie, not_false_eq_true, iff_true]
      omega
  | trunc => simp [increments, IncrementsFor, MissesAtTie]

/-! ## Rational numbers -/

end Rounding

/-- A number with a sign. -/
def signed {α : Type} [Neg α] (negative : Bool) (a : α) : α := if negative then -a else a

theorem signed_mul (negative : Bool) (a b : ℚ) :
    signed negative (a * b) = signed negative a * b := by
  cases negative with
  | true => exact (neg_mul a b).symm
  | false => rfl

theorem signed_div (negative : Bool) (a b : ℚ) :
    signed negative (a / b) = signed negative a / b := by
  rw [div_eq_mul_inv, signed_mul, div_eq_mul_inv]

theorem signed_inj {negative : Bool} {a b : ℚ} : signed negative a = signed negative b ↔ a = b := by
  cases negative with
  | true => exact neg_inj
  | false => exact Iff.rfl

theorem intCast_signed (negative : Bool) (n : ℤ) :
    ((signed negative n : ℤ) : ℚ) = signed negative (n : ℚ) := by
  cases negative with
  | true => exact Int.cast_neg n
  | false => rfl

theorem abs_eq_div (x : ℚ) : |x| = (x.num.natAbs : ℚ) / x.den := by
  conv_lhs => rw [← Rat.num_div_den x]
  rw [abs_div, Nat.abs_cast, ← Int.cast_abs, Int.abs_eq_natAbs, Int.cast_natCast]

/-- A rational number is its numerator by its denominator, with its sign. -/
theorem eq_signed (x : ℚ) :
    x = signed (decide (x < 0)) ((x.num.natAbs : ℚ) / x.den) := by
  rw [← abs_eq_div]
  simp only [signed]
  by_cases hneg : x < 0
  · rw [decide_eq_true hneg, if_pos rfl, abs_of_neg hneg, neg_neg]
  · rw [decide_eq_false hneg, if_neg (by decide), abs_of_nonneg (not_lt.1 hneg)]

theorem abs_signed (negative : Bool) (a : ℚ) : |signed negative a| = |a| := by
  cases negative with
  | true => exact abs_neg a
  | false => rfl

namespace Rounding

variable (mode : Rounding)

/-- A rational number, rounded to an integer. -/
def round (x : ℚ) : ℤ :=
  signed (decide (x < 0)) (mode.magnitude (decide (x < 0)) x.num.natAbs x.den : ℤ)

/-- A rational number, rounded to a multiple of a power of ten. -/
def roundAt (e : ℤ) (x : ℚ) : ℚ := mode.round (x / 10 ^ e) * 10 ^ e

@[simp] theorem magnitude_zero (negative : Bool) {m : Nat} (hm : 0 < m) :
    mode.magnitude negative 0 m = 0 := by
  rw [mode.magnitude_of_dvd negative hm (Nat.dvd_zero m), Nat.zero_div]

@[simp] theorem round_zero : mode.round 0 = 0 := by
  simp [round, signed]

@[simp] theorem roundAt_zero (e : ℤ) : mode.roundAt e 0 = 0 := by
  rw [roundAt, zero_div, round_zero, Int.cast_zero, zero_mul]

theorem natAbs_round (x : ℚ) :
    (mode.round x).natAbs = mode.magnitude (decide (x < 0)) x.num.natAbs x.den := by
  simp only [round, signed]
  split_ifs
  · exact Int.natAbs_neg _
  · rfl

/-- A multiple of the place, with the sign of the number. -/
theorem roundAt_eq_signed (e : ℤ) (x : ℚ) :
    mode.roundAt e x =
      signed (decide (x < 0)) (((mode.round (x / 10 ^ e)).natAbs : ℚ) * 10 ^ e) := by
  have hpow : (0 : ℚ) < 10 ^ e := zpow_pos (by norm_num) e
  have hsign : decide (x / 10 ^ e < 0) = decide (x < 0) :=
    decide_eq_decide.2 (by rw [div_lt_iff₀ hpow, zero_mul])
  rw [signed_mul, natAbs_round, hsign, roundAt, round, hsign, intCast_signed, Int.cast_natCast]

theorem natAbs_round_le {x : ℚ} {n : Nat} (h : |x| < n) : (mode.round x).natAbs ≤ n := by
  rw [natAbs_round]
  apply mode.magnitude_le_of_lt
  have hden : (0 : ℚ) < x.den := by exact_mod_cast x.den_pos
  have habs : |x| = (x.num.natAbs : ℚ) / x.den := abs_eq_div x
  rw [habs, div_lt_iff₀ hden] at h
  exact_mod_cast h

theorem le_natAbs_round {x : ℚ} {n : Nat} (h : (n : ℚ) ≤ |x|) : n ≤ (mode.round x).natAbs := by
  rw [natAbs_round]
  refine le_trans ?_ (mode.le_magnitude _ _ _)
  have hden : (0 : ℚ) < x.den := by exact_mod_cast x.den_pos
  have habs : |x| = (x.num.natAbs : ℚ) / x.den := abs_eq_div x
  rw [habs, le_div_iff₀ hden] at h
  exact (Nat.le_div_iff_mul_le x.den_pos).2 (by exact_mod_cast h)

/-- A quotient with a sign is rounded by its magnitude. -/
theorem round_signed (negative : Bool) (p : Nat) {m : Nat} (hm : 0 < m) :
    mode.round (signed negative ((p : ℚ) / m)) =
      signed negative (mode.magnitude negative p m : ℤ) := by
  have hmq : (0 : ℚ) < m := by exact_mod_cast hm
  rcases Nat.eq_zero_or_pos p with rfl | hp
  · rw [mode.magnitude_zero negative hm]
    cases negative with
    | true => simp [signed, round]
    | false => simp [signed, round]
  · have hpq : (0 : ℚ) < (p : ℚ) / m := div_pos (by exact_mod_cast hp) hmq
    generalize hx : signed negative ((p : ℚ) / m) = x
    have hsign : decide (x < 0) = negative := by
      rw [← hx]
      cases negative with
      | true => exact decide_eq_true (neg_lt_zero.2 hpq)
      | false => exact decide_eq_false (not_lt.2 hpq.le)
    -- the numerator and the denominator are those of the quotient up to a factor
    have hquot : (x.num.natAbs : ℚ) / x.den = (p : ℚ) / m := by
      have hsigned := eq_signed x
      rw [hsign, ← hx, signed_inj] at hsigned
      rw [← hx]
      exact hsigned.symm
    have hcross : x.num.natAbs * m = p * x.den := by
      rw [div_eq_div_iff (by exact_mod_cast x.den_nz) hmq.ne'] at hquot
      exact_mod_cast hquot
    rw [round, hsign]
    congr 2
    calc mode.magnitude negative x.num.natAbs x.den
        = mode.magnitude negative (m * x.num.natAbs) (m * x.den) :=
          (mode.magnitude_mul_mul negative hm _ _).symm
      _ = mode.magnitude negative (x.den * p) (x.den * m) := by
          rw [Nat.mul_comm m x.num.natAbs, hcross, Nat.mul_comm p, Nat.mul_comm m]
      _ = mode.magnitude negative p m := mode.magnitude_mul_mul negative x.den_pos p m

/-- A whole number stays. -/
theorem round_intCast (n : ℤ) : mode.round (n : ℚ) = n := by
  rw [round, Rat.num_intCast, Rat.den_intCast, mode.magnitude_of_dvd _ Nat.one_pos (one_dvd _),
    Nat.div_one]
  simp only [signed]
  by_cases hneg : (n : ℚ) < 0
  · have hlt : n < 0 := by exact_mod_cast hneg
    rw [decide_eq_true hneg, if_pos rfl]
    omega
  · have hge : 0 ≤ n := by exact_mod_cast not_lt.1 hneg
    rw [decide_eq_false hneg, if_neg (by decide)]
    omega

/-- Rounding is exact only on the multiples of the place. -/
theorem roundAt_eq_self_iff (e : ℤ) (x : ℚ) : mode.roundAt e x = x ↔ ∃ n : ℤ, x = n * 10 ^ e := by
  have hpow : (10 : ℚ) ^ e ≠ 0 := zpow_ne_zero e (by norm_num)
  constructor
  · intro h
    exact ⟨_, h.symm⟩
  · rintro ⟨n, rfl⟩
    rw [roundAt, mul_div_cancel_right₀ _ hpow, round_intCast]

/-- A rounded number stays at a finer place. -/
theorem roundAt_of_le {e f : ℤ} (h : f ≤ e) (x : ℚ) :
    mode.roundAt f (mode.roundAt e x) = mode.roundAt e x := by
  rw [roundAt_eq_self_iff]
  obtain ⟨j, hj⟩ := Int.eq_ofNat_of_zero_le (sub_nonneg.2 h)
  refine ⟨mode.round (x / 10 ^ e) * 10 ^ j, ?_⟩
  have he : e = (j : ℤ) + f := by omega
  rw [roundAt, Int.cast_mul, Int.cast_pow, Int.cast_ofNat, mul_assoc, ← zpow_natCast,
    ← zpow_add₀ (by norm_num), ← he]

/-- The first rounding of a number lands on a tie that the second one, `k` places further, resolves
the wrong way. -/
def MissesTie (e : ℤ) (k : Nat) (x : ℚ) : Prop :=
  mode.MissesAtTie ((x / 10 ^ e).num.natAbs / (x / 10 ^ e).den)
    ((x / 10 ^ e).num.natAbs % (x / 10 ^ e).den) (x / 10 ^ e).den (10 ^ k)

/-- **Rounding to a place and then to a coarser one** is rounding to the coarser one exactly where
the first rounding does not miss a tie. -/
theorem roundAt_roundAt_iff (e : ℤ) {k : Nat} (hk : 0 < k) (x : ℚ) :
    mode.roundAt (e + k) (mode.roundAt e x) = mode.roundAt (e + k) x ↔ ¬ mode.MissesTie e k x := by
  have hpow : ∀ e : ℤ, (10 : ℚ) ^ e ≠ 0 := fun e => zpow_ne_zero e (by norm_num)
  have hsplit : (10 : ℚ) ^ (e + k) = 10 ^ e * (10 ^ k : ℕ) := by
    rw [zpow_add₀ (by norm_num), zpow_natCast]
    norm_num
  have hM : 0 < 10 ^ k := Nat.pow_pos (by decide)
  generalize hy : x / 10 ^ e = y
  generalize hnegative : decide (y < 0) = negative
  have hysigned : y = signed negative ((y.num.natAbs : ℚ) / y.den) := hnegative ▸ eq_signed y
  have hm := y.den_pos
  -- both sides as fractions at the coarser place: rounded once, and twice
  have hfirst : mode.roundAt e x / 10 ^ (e + k) = signed negative
      ((mode.magnitude negative y.num.natAbs y.den : ℚ) / (10 ^ k : ℕ)) := by
    rw [roundAt, hy, hsplit, round, hnegative, intCast_signed, Int.cast_natCast,
      mul_comm (10 ^ e : ℚ), mul_div_mul_right _ _ (hpow e), ← signed_div]
  have honce : x / 10 ^ (e + k) =
      signed negative ((y.num.natAbs : ℚ) / (y.den * 10 ^ k : ℕ)) := by
    rw [hsplit, ← div_div, hy, Nat.cast_mul, ← div_div, signed_div, ← hysigned]
  obtain ⟨j, rfl⟩ := Nat.exists_eq_succ_of_ne_zero hk.ne'
  -- the tie at the coarser place is half of a power of ten
  have hhalf : 10 ^ (j + 1) = 2 * (5 * 10 ^ j) := by
    rw [Nat.pow_succ]
    omega
  have hiff := mode.magnitude_magnitude_iff negative (p := y.num.natAbs) hm
    (Nat.mul_pos (by decide) (Nat.pow_pos (by decide))) (Nat.dvd_mul_right 5 (10 ^ j))
  rw [← hhalf] at hiff
  simp only [MissesTie]
  show (mode.round (mode.roundAt e x / _) : ℚ) * _ = (mode.round (x / _) : ℚ) * _ ↔ _
  rw [hfirst, honce, mode.round_signed _ _ hM, mode.round_signed _ _ (Nat.mul_pos hm hM), hy,
    mul_left_inj' (hpow _), intCast_signed, intCast_signed, signed_inj, Int.cast_natCast,
    Int.cast_natCast, Nat.cast_inj]
  exact hiff

end Rounding

end Ssgx.Support
