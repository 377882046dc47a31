import Mathlib.Data.Int.Log
import Mathlib.Data.Rat.Floor
import Ssgx.Support.Digits
import Ssgx.Support.Rounding

/-!
# Decimal arithmetic

Decimal floating-point numbers and the operations on them, as the General Decimal Arithmetic
specification has them. A finite number is a sign, a coefficient and an exponent. An operation has
an exact rational result and an ideal exponent; `Context.result` is what a context makes of them: a
number of at most `prec` digits, with the conditions that are raised on the way.

`Context.Holds` are the finite numbers of a context other than the subnormal ones. A result that
raises no condition but `inexact` and `rounded` is one of them and is the exact result rounded once,
which is the exact result where `inexact` is not raised (`result_of_mild`). A number that the
context holds is the result of itself (`result_self`), and a number is quantized where the context
holds the quantized one (`quantize_of_holds`).
-/

set_option autoImplicit false

namespace Ssgx.Support

/-- A finite decimal number. -/
structure Number where
  negative : Bool
  coefficient : Nat
  exponent : Int
deriving DecidableEq

/-- A decimal number, an infinity, or no number. -/
inductive Numeral where
  | finite (n : Number)
  | infinite (negative : Bool)
  | nan
deriving DecidableEq

/-- The conditions that an operation may raise. -/
inductive Condition where
  | clamped
  | conversionSyntax
  | divisionByZero
  | divisionImpossible
  | divisionUndefined
  | fpuError
  | inexact
  | invalidContext
  | invalidOperation
  | mallocError
  | notImplemented
  | overflow
  | rounded
  | subnormal
  | underflow
deriving DecidableEq

namespace Number

/-- The number that is written. -/
def value (n : Number) : ℚ := signed n.negative ((n.coefficient : ℚ) * 10 ^ n.exponent)

/-- The number of digits of the coefficient. -/
def digits (n : Number) : Nat := (decimal n.coefficient).length

/-- The exponent of the first digit. -/
def adjusted (n : Number) : Int := n.exponent + n.digits - 1

/-- The number with the other sign. -/
def neg (n : Number) : Number := { n with negative := !n.negative }

end Number

/-- A precision, a range of exponents and a rounding mode. -/
structure Context where
  prec : Nat
  emax : Int
  emin : Int
  round : Rounding

/-- `c` without trailing zeros, at most `limit` of them, and how many were taken off. -/
def stripZeros : Nat → Nat → Nat × Nat
  | 0, c => (c, 0)
  | limit + 1, c =>
      if c % 10 = 0 then ((stripZeros limit (c / 10)).1, (stripZeros limit (c / 10)).2 + 1)
      else (c, 0)

namespace Context

/-- The least exponent of a number of the context. -/
def etiny (ctx : Context) : Int := ctx.emin - (ctx.prec - 1)

/-- The exponent at which a number other than zero is rounded. -/
def place (ctx : Context) (x : ℚ) : Int := max (Int.log 10 |x| - ctx.prec + 1) ctx.etiny

/-- A number other than zero, rounded once. -/
def rounded (ctx : Context) (x : ℚ) : ℚ := ctx.round.roundAt (ctx.place x) x

/-- The coefficient of the rounded number at its place. -/
def coefficient (ctx : Context) (x : ℚ) : Nat := (ctx.round.round (x / 10 ^ ctx.place x)).natAbs

/-- A result of zero: its exponent is moved into the range of the context. -/
def zeroResult (ctx : Context) (ideal : Int) (negative : Bool) : Numeral × List Condition :=
  if ideal < ctx.etiny then (.finite ⟨negative, 0, ctx.etiny⟩, [.clamped])
  else if ctx.emax < ideal then (.finite ⟨negative, 0, ctx.emax⟩, [.clamped])
  else (.finite ⟨negative, 0, ideal⟩, [])

/-- A result beyond the range of the context. -/
def overflowResult (ctx : Context) (negative : Bool) : Numeral :=
  let largest : Numeral := .finite ⟨negative, 10 ^ ctx.prec - 1, ctx.emax - (ctx.prec - 1)⟩
  match ctx.round with
  | .down => largest
  | .zeroFiveUp => largest
  | .ceiling => if negative then largest else .infinite negative
  | .floor => if negative then .infinite negative else largest
  | _ => .infinite negative

/-- The number of a result. An exact one has the exponent next to the ideal one. -/
def number (ctx : Context) (x : ℚ) (ideal : Int) : Number :=
  let negative := decide (x < 0)
  let c := ctx.coefficient x
  if ctx.rounded x = x then
    let stripped := stripZeros (ideal - ctx.place x).toNat c
    ⟨negative, stripped.1, ctx.place x + stripped.2⟩
  else if c = 10 ^ ctx.prec then ⟨negative, 10 ^ (ctx.prec - 1), ctx.place x + 1⟩
  else ⟨negative, c, ctx.place x⟩

/-- The conditions of a result within the range of the context. -/
def conditions (ctx : Context) (x : ℚ) (ideal : Int) : List Condition :=
  (if ctx.rounded x = x then (if ideal < ctx.place x then [.rounded] else [])
    else [.inexact, .rounded]) ++
  (if |x| < 10 ^ ctx.emin then
    .subnormal :: (if ctx.rounded x = x then [] else [.underflow]) ++
      (if ctx.coefficient x = 0 then [.clamped] else [])
  else [])

/-- **What a context makes of an exact result.** -/
def result (ctx : Context) (x : ℚ) (ideal : Int) (zeroNegative : Bool) :
    Numeral × List Condition :=
  if x = 0 then ctx.zeroResult ideal zeroNegative
  else if 10 ^ (ctx.emax + 1) ≤ |ctx.rounded x| then
    (ctx.overflowResult (decide (x < 0)), [.overflow, .inexact, .rounded])
  else (.finite (ctx.number x ideal), ctx.conditions x ideal)

/-! ## The operations -/

/-- The sum. -/
def add (ctx : Context) (a b : Number) : Numeral × List Condition :=
  ctx.result (a.value + b.value) (min a.exponent b.exponent)
    (if a.negative = b.negative then a.negative else ctx.round = .floor)

/-- The difference. -/
def sub (ctx : Context) (a b : Number) : Numeral × List Condition := ctx.add a b.neg

/-- The product. -/
def mul (ctx : Context) (a b : Number) : Numeral × List Condition :=
  ctx.result (a.value * b.value) (a.exponent + b.exponent) (a.negative ≠ b.negative)

/-- The quotient. -/
def div (ctx : Context) (a b : Number) : Numeral × List Condition :=
  if b.coefficient = 0 then
    if a.coefficient = 0 then (.nan, [.divisionUndefined])
    else (.infinite (a.negative ≠ b.negative), [.divisionByZero])
  else ctx.result (a.value / b.value) (a.exponent - b.exponent) (a.negative ≠ b.negative)

/-- The number at an exponent. -/
def atExponent (ctx : Context) (a : Number) (e : Int) : Number :=
  ⟨a.negative, (ctx.round.round (a.value / 10 ^ e)).natAbs, e⟩

/-- The number, rounded to the exponent of another one. It must have the precision and the range of
the context. -/
def quantize (ctx : Context) (a b : Number) : Numeral × List Condition :=
  let n := ctx.atExponent a b.exponent
  if b.exponent < ctx.etiny ∨ ctx.emax < b.exponent ∨ ctx.prec < n.digits ∨ ctx.emax < n.adjusted
  then (.nan, [.invalidOperation])
  else (.finite n,
    (if n.coefficient ≠ 0 ∧ n.adjusted < ctx.emin then [.subnormal] else []) ++
    (if a.coefficient ≠ 0 ∧ a.exponent < b.exponent then [.rounded] else []) ++
    (if n.value = a.value then [] else [.inexact]))

end Context

/-- The order of two numbers: `-1`, `0` or `1`. -/
def Number.compare (a b : Number) : Int :=
  if a.value < b.value then -1 else if a.value = b.value then 0 else 1

/-! ## Magnitudes -/

theorem ten_zpow_pos (e : ℤ) : (0 : ℚ) < 10 ^ e := zpow_pos (by norm_num) e

namespace Number

theorem abs_value (n : Number) : |n.value| = (n.coefficient : ℚ) * 10 ^ n.exponent := by
  have hnonneg : (0 : ℚ) ≤ (n.coefficient : ℚ) * 10 ^ n.exponent :=
    mul_nonneg (Nat.cast_nonneg _) (ten_zpow_pos _).le
  rw [value, abs_signed, abs_of_nonneg hnonneg]

theorem value_eq_zero_iff {n : Number} : n.value = 0 ↔ n.coefficient = 0 := by
  rw [← abs_eq_zero, abs_value, mul_eq_zero, Nat.cast_eq_zero]
  exact or_iff_left (ten_zpow_pos _).ne'

/-- The sign of a number other than zero. -/
theorem decide_value_neg {n : Number} (hn : n.coefficient ≠ 0) :
    decide (n.value < 0) = n.negative := by
  have hpos : (0 : ℚ) < (n.coefficient : ℚ) * 10 ^ n.exponent :=
    mul_pos (by exact_mod_cast Nat.pos_of_ne_zero hn) (ten_zpow_pos _)
  unfold value signed
  cases n.negative with
  | true => exact decide_eq_true (neg_lt_zero.2 hpos)
  | false => exact decide_eq_false (not_lt.2 hpos.le)

@[simp] theorem value_neg (n : Number) : n.neg.value = -n.value := by
  unfold neg value signed
  cases n.negative with
  | true => simp
  | false => simp

/-- **The adjusted exponent** is the magnitude of the number. -/
theorem zpow_le_abs_value_iff {n : Number} (hn : n.coefficient ≠ 0) (k : ℤ) :
    (10 : ℚ) ^ k ≤ |n.value| ↔ k ≤ n.adjusted := by
  have hdigits : 0 < n.digits := List.length_pos_of_ne_nil (decimal_ne_nil _)
  rw [abs_value, adjusted, ← div_le_iff₀ (ten_zpow_pos _), ← zpow_sub₀ (by norm_num)]
  rcases le_or_gt 0 (k - n.exponent) with hge | hlt
  · obtain ⟨j, hj⟩ := Int.eq_ofNat_of_zero_le hge
    have hlength : j < n.digits ↔ 10 ^ j ≤ n.coefficient := lt_length_decimal_iff hn
    rw [hj, zpow_natCast]
    have hcast : (10 : ℚ) ^ j ≤ n.coefficient ↔ 10 ^ j ≤ n.coefficient := by
      exact_mod_cast Iff.rfl
    rw [hcast, ← hlength]
    omega
  · refine iff_of_true ?_ (by omega)
    have hone : (1 : ℚ) ≤ n.coefficient := by exact_mod_cast Nat.one_le_iff_ne_zero.2 hn
    exact (zpow_le_one_of_nonpos₀ (by norm_num) hlt.le).trans hone

theorem abs_value_lt_zpow_iff {n : Number} (hn : n.coefficient ≠ 0) (k : ℤ) :
    |n.value| < (10 : ℚ) ^ k ↔ n.adjusted < k := by
  rw [← not_le, zpow_le_abs_value_iff hn, not_le]

theorem log_abs_value {n : Number} (hn : n.coefficient ≠ 0) :
    Int.log 10 |n.value| = n.adjusted := by
  have hpos : 0 < |n.value| := abs_pos.2 fun h => hn (value_eq_zero_iff.1 h)
  apply eq_of_forall_le_iff
  intro k
  rw [← zpow_le_abs_value_iff hn, ← Int.zpow_le_iff_le_log (by decide) hpos, Nat.cast_ofNat]

end Number

/-! ## One rounding -/

namespace Context

variable {ctx : Context}

/-- The numbers of a context, other than the subnormal ones. -/
structure Holds (ctx : Context) (n : Number) : Prop where
  digits : n.digits ≤ ctx.prec
  zero : n.coefficient = 0 → ctx.etiny ≤ n.exponent ∧ n.exponent ≤ ctx.emax
  nonzero : n.coefficient ≠ 0 → ctx.emin ≤ n.adjusted ∧ n.adjusted ≤ ctx.emax

theorem abs_rounded (ctx : Context) (x : ℚ) :
    |ctx.rounded x| = (ctx.coefficient x : ℚ) * 10 ^ ctx.place x := by
  have hnonneg : (0 : ℚ) ≤ (ctx.coefficient x : ℚ) * 10 ^ ctx.place x :=
    mul_nonneg (Nat.cast_nonneg _) (ten_zpow_pos _).le
  rw [rounded, Rounding.roundAt_eq_signed, abs_signed]
  exact abs_of_nonneg hnonneg

/-- The place of a number that is not subnormal. -/
theorem place_of_le {x : ℚ} (hx : x ≠ 0) (h : (10 : ℚ) ^ ctx.emin ≤ |x|) :
    ctx.place x = Int.log 10 |x| - ctx.prec + 1 := by
  have hlog : ctx.emin ≤ Int.log 10 |x| :=
    (Int.zpow_le_iff_le_log (by decide) (abs_pos.2 hx)).1 (by simpa using h)
  simp only [place, etiny]
  omega

/-- The scaled number has as many digits as the context. -/
theorem scaled_bounds {x : ℚ} (hx : x ≠ 0) (hprec : 0 < ctx.prec) :
    ((10 ^ (ctx.prec - 1) : Nat) : ℚ) ≤ |x / 10 ^ (Int.log 10 |x| - ctx.prec + 1)| ∧
      |x / 10 ^ (Int.log 10 |x| - ctx.prec + 1)| < ((10 ^ ctx.prec : Nat) : ℚ) := by
  have hlow : (10 : ℚ) ^ Int.log 10 |x| ≤ |x| := by
    simpa using Int.zpow_log_le_self (b := 10) (by decide) (abs_pos.2 hx)
  have hhigh : |x| < (10 : ℚ) ^ (Int.log 10 |x| + 1) := by
    simpa using Int.lt_zpow_succ_log_self (b := 10) (by decide) |x|
  rw [abs_div, abs_of_pos (ten_zpow_pos _), le_div_iff₀ (ten_zpow_pos _),
    div_lt_iff₀ (ten_zpow_pos _), Nat.cast_pow, Nat.cast_pow, Nat.cast_ofNat, ← zpow_natCast,
    ← zpow_natCast, ← zpow_add₀ (by norm_num), ← zpow_add₀ (by norm_num)]
  constructor
  · refine le_trans (le_of_eq ?_) hlow
    congr 1
    omega
  · apply lt_of_lt_of_eq hhigh
    congr 1
    omega

/-- A coefficient without its trailing zeros is the coefficient. -/
theorem stripZeros_spec (limit c : Nat) :
    (stripZeros limit c).1 * 10 ^ (stripZeros limit c).2 = c := by
  induction limit generalizing c with
  | zero => exact Nat.mul_one c
  | succ limit ih =>
      rw [stripZeros]
      split_ifs with hzero
      · show _ * 10 ^ (_ + 1) = c
        rw [Nat.pow_succ, ← Nat.mul_assoc, ih]
        omega
      · exact Nat.mul_one c

theorem stripZeros_mul_pow (c k : Nat) : stripZeros k (c * 10 ^ k) = (c, k) := by
  induction k with
  | zero => rw [Nat.pow_zero, Nat.mul_one, stripZeros]
  | succ k ih =>
      have hsplit : c * 10 ^ (k + 1) = c * 10 ^ k * 10 := by rw [Nat.pow_succ, Nat.mul_assoc]
      rw [stripZeros, hsplit, if_pos (Nat.mul_mod_left _ _), Nat.mul_div_cancel _ (by decide), ih]

/-- **The number of a result** is the exact result rounded once. -/
theorem value_number (hprec : 0 < ctx.prec) (x : ℚ) (ideal : Int) :
    (ctx.number x ideal).value = ctx.rounded x := by
  have hten : (10 : ℚ) ≠ 0 := by norm_num
  rw [rounded, Rounding.roundAt_eq_signed, number, Number.value]
  split_ifs with hexact hcarry
  · have hstrip := stripZeros_spec (ideal - ctx.place x).toNat (ctx.coefficient x)
    generalize stripZeros (ideal - ctx.place x).toNat (ctx.coefficient x) = stripped at hstrip ⊢
    show signed _ ((stripped.1 : ℚ) * 10 ^ (ctx.place x + stripped.2)) =
      signed _ ((ctx.coefficient x : ℚ) * _)
    rw [← hstrip, Nat.cast_mul, Nat.cast_pow, Nat.cast_ofNat, zpow_add₀ hten, zpow_natCast,
      mul_assoc, mul_comm ((10 : ℚ) ^ ctx.place x)]
  · show signed _ (((10 ^ (ctx.prec - 1) : Nat) : ℚ) * 10 ^ (ctx.place x + 1)) =
      signed _ ((ctx.coefficient x : ℚ) * _)
    rw [hcarry, Nat.cast_pow, Nat.cast_pow, Nat.cast_ofNat, zpow_add_one₀ hten,
      mul_comm ((10 : ℚ) ^ ctx.place x), ← mul_assoc, ← pow_succ,
      Nat.sub_add_cancel hprec]
  · rfl

/-- The number of a result has at most as many digits as the context. -/
theorem digits_number {x : ℚ} (hx : x ≠ 0) (hprec : 0 < ctx.prec)
    (hplace : ctx.place x = Int.log 10 |x| - ctx.prec + 1) (ideal : Int) :
    (ctx.number x ideal).digits ≤ ctx.prec := by
  have hle : ctx.coefficient x ≤ 10 ^ ctx.prec :=
    ctx.round.natAbs_round_le (hplace ▸ (scaled_bounds hx hprec).2)
  rw [Number.digits, length_decimal_le_iff hprec, number]
  split_ifs with hexact hcarry
  · have hstrip := stripZeros_spec (ideal - ctx.place x).toNat (ctx.coefficient x)
    generalize stripZeros (ideal - ctx.place x).toNat (ctx.coefficient x) = stripped at hstrip ⊢
    have hstripped : stripped.1 ≤ ctx.coefficient x := by
      rw [← hstrip]
      exact Nat.le_mul_of_pos_right _ (Nat.pow_pos (by decide))
    -- an exact coefficient is the scaled number, which is below the power
    have hlt : ctx.coefficient x < 10 ^ ctx.prec := by
      have hscaled := (scaled_bounds hx hprec).2
      rw [← hplace, abs_div, abs_of_pos (ten_zpow_pos _), ← hexact, abs_rounded, hexact,
        mul_div_cancel_right₀ _ (ten_zpow_pos _).ne'] at hscaled
      exact_mod_cast hscaled
    exact hstripped.trans_lt hlt
  · exact Nat.pow_lt_pow_right (by decide) (by omega)
  · exact lt_of_le_of_ne hle hcarry

/-- A number, rounded once to the precision of the context. -/
def rounding (ctx : Context) (x : ℚ) : ℚ :=
  ctx.round.roundAt (Int.log 10 |x| - ctx.prec + 1) x

theorem rounding_zero (ctx : Context) : ctx.rounding 0 = 0 := ctx.round.roundAt_zero _

/-- Rounding does not lower the magnitude. -/
theorem zpow_log_le_abs_rounding {x : ℚ} (hx : x ≠ 0) (hprec : 0 < ctx.prec) :
    (10 : ℚ) ^ Int.log 10 |x| ≤ |ctx.rounding x| := by
  have hscaled := (scaled_bounds hx hprec).1
  have hlog : Int.log 10 |x| = ((ctx.prec - 1 : Nat) : ℤ) + (Int.log 10 |x| - ctx.prec + 1) := by
    omega
  rw [rounding, Rounding.roundAt_eq_signed, abs_signed]
  generalize Int.log 10 |x| - ctx.prec + 1 = place at hscaled hlog ⊢
  have hle : 10 ^ (ctx.prec - 1) ≤ (ctx.round.round (x / 10 ^ place)).natAbs :=
    ctx.round.le_natAbs_round hscaled
  have hcast : (10 : ℚ) ^ (ctx.prec - 1) ≤ (ctx.round.round (x / 10 ^ place)).natAbs := by
    exact_mod_cast hle
  rw [hlog, zpow_add₀ (by norm_num), zpow_natCast]
  exact (mul_le_mul_of_nonneg_right hcast (ten_zpow_pos _).le).trans (le_abs_self _)

/-- The conditions say no more than that digits were dropped. -/
def Mild (conditions : List Condition) : Prop := ∀ c ∈ conditions, c = .inexact ∨ c = .rounded

/-- Zero in the range of the context. -/
theorem holds_zero {n : Number} (hprec : 0 < ctx.prec) (hzero : n.coefficient = 0)
    (hrange : ctx.etiny ≤ n.exponent ∧ n.exponent ≤ ctx.emax) : ctx.Holds n := by
  refine ⟨?_, fun _ => hrange, fun h => absurd hzero h⟩
  rw [Number.digits, hzero]
  exact hprec

/-- A power of ten in the range of the context. -/
theorem holds_powerOfTen {n : Number} (hprec : 0 < ctx.prec) (hone : n.coefficient = 1)
    (hlow : ctx.emin ≤ n.exponent) (hhigh : n.exponent ≤ ctx.emax) : ctx.Holds n := by
  have hdigits : n.digits = 1 := by
    rw [Number.digits, hone]
    decide
  have hadjusted : n.adjusted = n.exponent := by
    rw [Number.adjusted, hdigits]
    omega
  refine ⟨hdigits.trans_le hprec, fun hzero => ?_, fun _ => ?_⟩
  · rw [hone] at hzero
    exact absurd hzero Nat.one_ne_zero
  · rw [hadjusted]
    exact ⟨hlow, hhigh⟩

/-- **A result without other conditions than `inexact` and `rounded`** is a number of the context,
the exact result rounded once, and the exact result itself where `inexact` is not raised. -/
theorem result_of_mild (hprec : 0 < ctx.prec) {x : ℚ} {ideal : Int} {zeroNegative : Bool}
    (h : Mild (ctx.result x ideal zeroNegative).2) :
    ∃ n, (ctx.result x ideal zeroNegative).1 = .finite n ∧ ctx.Holds n ∧
      n.value = ctx.rounding x ∧
      (.inexact ∉ (ctx.result x ideal zeroNegative).2 → n.value = x) := by
  simp only [result] at h ⊢
  by_cases hx : x = 0
  · subst hx
    rw [if_pos rfl] at h ⊢
    simp only [zeroResult] at h ⊢
    split_ifs at h ⊢ with hlow hhigh
    · -- a zero whose exponent is moved raises `clamped`
      exact absurd (h .clamped List.mem_cons_self) (by decide)
    · exact absurd (h .clamped List.mem_cons_self) (by decide)
    · have hvalue : Number.value ⟨zeroNegative, 0, ideal⟩ = 0 := Number.value_eq_zero_iff.2 rfl
      refine ⟨_, rfl, holds_zero hprec rfl ⟨not_lt.1 hlow, not_lt.1 hhigh⟩, ?_, fun _ => hvalue⟩
      rw [hvalue, rounding_zero]
  · rw [if_neg hx] at h ⊢
    by_cases hoverflow : (10 : ℚ) ^ (ctx.emax + 1) ≤ |ctx.rounded x|
    · rw [if_pos hoverflow] at h
      exact absurd (h .overflow List.mem_cons_self) (by decide)
    · rw [if_neg hoverflow] at h ⊢
      -- below the normal numbers it would raise `subnormal`
      have hnormal : (10 : ℚ) ^ ctx.emin ≤ |x| := by
        by_contra hlow
        refine absurd (h .subnormal (List.mem_append_right _ ?_)) (by decide)
        rw [if_pos (not_le.1 hlow)]
        exact List.mem_cons_self
      have hplace := place_of_le hx hnormal
      have hvalue := value_number hprec x ideal
      have hrounded : ctx.rounded x = ctx.rounding x := by rw [rounded, hplace, rounding]
      refine ⟨_, rfl, ⟨digits_number hx hprec hplace ideal, ?_, ?_⟩, hvalue.trans hrounded, ?_⟩
      · intro hzero
        have hpos := (ten_zpow_pos _).trans_le (zpow_log_le_abs_rounding hx hprec)
        rw [← hrounded, ← hvalue, Number.value_eq_zero_iff.2 hzero, abs_zero] at hpos
        exact absurd hpos (lt_irrefl 0)
      · intro hnonzero
        rw [← Number.zpow_le_abs_value_iff hnonzero, ← Int.lt_add_one_iff,
          ← Number.abs_value_lt_zpow_iff hnonzero, hvalue]
        refine ⟨le_trans ?_ (hrounded ▸ zpow_log_le_abs_rounding hx hprec), not_le.1 hoverflow⟩
        have hlog : ctx.emin ≤ Int.log 10 |x| :=
          (Int.zpow_le_iff_le_log (by decide) (abs_pos.2 hx)).1 (by simpa using hnormal)
        exact zpow_le_zpow_right₀ (by norm_num) hlog
      · -- a value that differs would raise `inexact`
        intro hinexact
        rw [hvalue]
        by_contra hne
        refine hinexact (List.mem_append_left _ ?_)
        rw [if_neg hne]
        exact List.mem_cons_self

/-- A result within the range of the context raises no other conditions than `inexact` and
`rounded`. -/
theorem mild_result {x : ℚ} (hx : x ≠ 0) (hnormal : (10 : ℚ) ^ ctx.emin ≤ |x|)
    (hrange : |ctx.rounding x| < (10 : ℚ) ^ (ctx.emax + 1)) (ideal : Int) (zeroNegative : Bool) :
    Mild (ctx.result x ideal zeroNegative).2 := by
  have hrounded : ctx.rounded x = ctx.rounding x := by
    rw [rounded, place_of_le hx hnormal, rounding]
  rw [result, if_neg hx, if_neg (not_le.2 (hrounded ▸ hrange))]
  intro c hc
  rw [conditions, if_neg (not_lt.2 hnormal), List.append_nil] at hc
  split_ifs at hc
  · exact .inr (List.mem_singleton.1 hc)
  · exact absurd hc List.not_mem_nil
  · rcases List.mem_cons.1 hc with rfl | hc
    · exact .inl rfl
    · exact .inr (List.mem_singleton.1 hc)

/-- A number of the context is rounded to itself. -/
theorem rounding_value {n : Number} (h : ctx.Holds n) : ctx.rounding n.value = n.value := by
  by_cases hn : n.coefficient = 0
  · rw [Number.value_eq_zero_iff.2 hn, rounding_zero]
  · rw [rounding, Rounding.roundAt_eq_self_iff, Number.log_abs_value hn]
    have hdigits := h.digits
    obtain ⟨j, hj⟩ : ∃ j : Nat, n.exponent = (j : ℤ) + (n.adjusted - ctx.prec + 1) := by
      refine ⟨(n.exponent - (n.adjusted - ctx.prec + 1)).toNat, ?_⟩
      simp only [Number.adjusted]
      omega
    refine ⟨signed n.negative (n.coefficient * 10 ^ j), ?_⟩
    rw [Number.value, hj, zpow_add₀ (by norm_num), zpow_natCast, ← mul_assoc, signed_mul,
      intCast_signed, Int.cast_mul, Int.cast_natCast, Int.cast_pow, Int.cast_ofNat]

/-- **A number of the context is the result of itself.** -/
theorem result_self {n : Number} (h : ctx.Holds n) :
    ctx.result n.value n.exponent n.negative = (.finite n, []) := by
  simp only [result]
  by_cases hn : n.coefficient = 0
  · obtain ⟨hlow, hhigh⟩ := h.zero hn
    rw [if_pos (Number.value_eq_zero_iff.2 hn), zeroResult, if_neg (not_lt.2 hlow),
      if_neg (not_lt.2 hhigh), ← hn]
  · have hx : n.value ≠ 0 := fun h => hn (Number.value_eq_zero_iff.1 h)
    obtain ⟨hmin, hmax⟩ := h.nonzero hn
    have hnormal : (10 : ℚ) ^ ctx.emin ≤ |n.value| := (Number.zpow_le_abs_value_iff hn _).2 hmin
    have hplace := place_of_le hx hnormal
    have hexact : ctx.rounded n.value = n.value := by
      rw [rounded, hplace]
      exact rounding_value h
    have hoverflow : ¬ (10 : ℚ) ^ (ctx.emax + 1) ≤ |ctx.rounded n.value| := by
      rw [hexact, not_le, Number.abs_value_lt_zpow_iff hn]
      omega
    have hdigits := h.digits
    -- the last place of the context is not above that of the number
    have hbelow : ctx.place n.value ≤ n.exponent := by
      rw [hplace, Number.log_abs_value hn, Number.adjusted]
      omega
    obtain ⟨j, hj⟩ : ∃ j : Nat, n.exponent = (j : ℤ) + ctx.place n.value :=
      ⟨(n.exponent - ctx.place n.value).toNat, by omega⟩
    have hcoefficient : ctx.coefficient n.value = n.coefficient * 10 ^ j := by
      have habs := abs_rounded ctx n.value
      rw [hexact, Number.abs_value, hj, zpow_add₀ (by norm_num), zpow_natCast, ← mul_assoc,
        mul_left_inj' (ten_zpow_pos _).ne'] at habs
      exact_mod_cast habs.symm
    have hconditions : ctx.conditions n.value n.exponent = [] := by
      rw [conditions, if_pos hexact, if_neg (not_lt.2 hbelow), if_neg (not_lt.2 hnormal),
        List.append_nil]
    -- the zeros that the coefficient has more are stripped again
    have hnumber : ctx.number n.value n.exponent = n := by
      have hlimit : (n.exponent - ctx.place n.value).toNat = j := by omega
      rw [number, if_pos hexact, hlimit, hcoefficient, stripZeros_mul_pow,
        Number.decide_value_neg hn]
      show (⟨n.negative, n.coefficient, _⟩ : Number) = n
      rw [add_comm, ← hj]
    rw [if_neg hx, if_neg hoverflow, hconditions, hnumber]

/-- **The result of a number raises nothing** exactly where the context holds the number. -/
theorem conditions_result_self_iff (hprec : 0 < ctx.prec) {n : Number} :
    (ctx.result n.value n.exponent n.negative).2 = [] ↔ ctx.Holds n := by
  constructor
  · intro h
    simp only [result] at h
    by_cases hn : n.coefficient = 0
    · rw [if_pos (Number.value_eq_zero_iff.2 hn), zeroResult] at h
      split_ifs at h with hlow hhigh
      exact holds_zero hprec hn ⟨not_lt.1 hlow, not_lt.1 hhigh⟩
    · have hx : n.value ≠ 0 := fun h => hn (Number.value_eq_zero_iff.1 h)
      rw [if_neg hx] at h
      split_ifs at h with hoverflow
      rw [conditions, List.append_eq_nil_iff] at h
      obtain ⟨hround, hsubnormal⟩ := h
      -- each of the conditions that is not raised says something of the number
      split_ifs at hround with hexact hideal
      have hnormal : (10 : ℚ) ^ ctx.emin ≤ |n.value| := by
        by_contra hlow
        rw [if_pos (not_le.1 hlow), List.append_eq_nil_iff] at hsubnormal
        exact List.cons_ne_nil _ _ hsubnormal.1
      have hmin := (Number.zpow_le_abs_value_iff hn _).1 hnormal
      rw [hexact, not_le, Number.abs_value_lt_zpow_iff hn] at hoverflow
      rw [place_of_le hx hnormal, Number.log_abs_value hn, Number.adjusted] at hideal
      exact ⟨by omega, fun hzero => absurd hzero hn, fun _ => ⟨hmin, by omega⟩⟩
  · intro h
    rw [result_self h]

/-- The number at an exponent is the number rounded once. -/
theorem value_atExponent (ctx : Context) (a : Number) (e : Int) :
    (ctx.atExponent a e).value = ctx.round.roundAt e a.value := by
  by_cases ha : a.coefficient = 0
  · have hzero : a.value = 0 := Number.value_eq_zero_iff.2 ha
    have hcoefficient : (ctx.atExponent a e).coefficient = 0 := by
      rw [atExponent, hzero, zero_div, Rounding.round_zero]
      rfl
    rw [Number.value_eq_zero_iff.2 hcoefficient, hzero, Rounding.roundAt_zero]
  · rw [Rounding.roundAt_eq_signed, Number.decide_value_neg ha]
    rfl

/-- **A quantized number without other conditions** than `inexact` and `rounded` is a number of the
context, the number rounded once to the exponent. -/
theorem quantize_of_mild {a b : Number} (h : Mild (ctx.quantize a b).2) :
    (ctx.quantize a b).1 = .finite (ctx.atExponent a b.exponent) ∧
      ctx.Holds (ctx.atExponent a b.exponent) := by
  simp only [quantize] at h ⊢
  by_cases hinvalid : b.exponent < ctx.etiny ∨ ctx.emax < b.exponent ∨
      ctx.prec < (ctx.atExponent a b.exponent).digits ∨
        ctx.emax < (ctx.atExponent a b.exponent).adjusted
  · simp only [if_pos hinvalid] at h
    exact absurd (h .invalidOperation List.mem_cons_self) (by decide)
  · simp only [if_neg hinvalid] at h ⊢
    rw [not_or, not_or, not_or, not_lt, not_lt, not_lt, not_lt] at hinvalid
    obtain ⟨hlow, hhigh, hdigits, hmax⟩ := hinvalid
    refine ⟨trivial, hdigits, fun _ => ⟨hlow, hhigh⟩, fun hnonzero => ⟨?_, hmax⟩⟩
    by_contra hmin
    refine absurd (h .subnormal (List.mem_append_left _ (List.mem_append_left _ ?_))) (by decide)
    rw [if_pos ⟨hnonzero, not_le.1 hmin⟩]
    exact List.mem_cons_self

/-- A number is quantized where the context holds the quantized one. -/
theorem quantize_of_holds {a b : Number} (hlow : ctx.etiny ≤ b.exponent)
    (hhigh : b.exponent ≤ ctx.emax) (h : ctx.Holds (ctx.atExponent a b.exponent)) :
    (ctx.quantize a b).1 = .finite (ctx.atExponent a b.exponent) ∧ Mild (ctx.quantize a b).2 := by
  have hadjusted : (ctx.atExponent a b.exponent).adjusted ≤ ctx.emax := by
    by_cases hzero : (ctx.atExponent a b.exponent).coefficient = 0
    · have hdigits : (ctx.atExponent a b.exponent).digits = 1 := by
        rw [Number.digits, hzero]
        rfl
      rw [Number.adjusted, hdigits]
      show b.exponent + 1 - 1 ≤ ctx.emax
      omega
    · exact (h.nonzero hzero).2
  have hvalid : ¬ (b.exponent < ctx.etiny ∨ ctx.emax < b.exponent ∨
      ctx.prec < (ctx.atExponent a b.exponent).digits ∨
        ctx.emax < (ctx.atExponent a b.exponent).adjusted) := by
    rw [not_or, not_or, not_or, not_lt, not_lt, not_lt, not_lt]
    exact ⟨hlow, hhigh, h.digits, hadjusted⟩
  have hnormal : ¬ ((ctx.atExponent a b.exponent).coefficient ≠ 0 ∧
      (ctx.atExponent a b.exponent).adjusted < ctx.emin) :=
    fun hsubnormal => not_lt.2 (h.nonzero hsubnormal.1).1 hsubnormal.2
  simp only [quantize]
  simp only [if_neg hvalid, if_neg hnormal, List.nil_append, true_and]
  intro c hc
  rcases List.mem_append.1 hc with hc | hc
  · split_ifs at hc
    · exact .inr (List.mem_singleton.1 hc)
    · exact absurd hc List.not_mem_nil
  · split_ifs at hc
    · exact absurd hc List.not_mem_nil
    · exact .inl (List.mem_singleton.1 hc)

end Context

end Ssgx.Support
