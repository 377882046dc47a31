import Ssgx.Decimal.TextRoundTrip

/-!
# Rounding with a `Precision`

An operation with a `Precision` rounds the exact result to 99 digits and the outcome to the scale,
with the same rounding mode. That is the exact result rounded once to the scale, unless the first
rounding lands on a tie of the second one, which then goes the wrong way (`rounded_once_iff`). It
happens in the three modes that round to the nearest number; the other six never miss a tie
(`not_missesScale_of_directed`), and neither does a result of at most 99 digits
(`not_missesScale_of_exact`).
-/

set_option autoImplicit false

namespace Ssgx.Decimal

open Ssgx.Support

/-- The exponent of the last one of 99 digits. -/
def lastPlace (x : ℚ) : ℤ := Int.log 10 |x| - maxPrec + 1

/-- The last one of 99 digits is behind the scale, and the number rounded to it is a tie of the
scale that is resolved the wrong way. -/
def MissesScale (mode : Rounding) (scale : Int) (x : ℚ) : Prop :=
  lastPlace x < -scale ∧ mode.MissesTie (lastPlace x) (-scale - lastPlace x).toNat x

/-- **Rounding to 99 digits and then to the scale.** -/
theorem roundAt_lastPlace_iff (mode : Rounding) {scale : Int} {x : ℚ}
    (hplace : lastPlace x ≤ -scale) :
    mode.roundAt (-scale) (mode.roundAt (lastPlace x) x) = mode.roundAt (-scale) x ↔
      ¬ MissesScale mode scale x := by
  rcases hplace.lt_or_eq with hlt | heq
  · have hk : -scale = lastPlace x + ((-scale - lastPlace x).toNat : ℤ) := by omega
    have hpos : 0 < (-scale - lastPlace x).toNat := by omega
    have hiff := mode.roundAt_roundAt_iff (lastPlace x) hpos x
    rw [← hk] at hiff
    rw [hiff, MissesScale, and_iff_right hlt]
  · rw [← heq, mode.roundAt_of_le le_rfl]
    exact iff_of_true rfl fun hmisses => hmisses.1.ne heq

/-- The modes that do not round to the nearest number. -/
theorem not_missesScale_of_directed {mode : Rounding}
    (hmode : mode ≠ .halfUp ∧ mode ≠ .halfDown ∧ mode ≠ .halfEven) (scale : Int) (x : ℚ) :
    ¬ MissesScale mode scale x := by
  rintro ⟨-, hmisses⟩
  cases mode with
  | halfUp => exact hmode.1 rfl
  | halfDown => exact hmode.2.1 rfl
  | halfEven => exact hmode.2.2 rfl
  | _ => exact hmisses

/-- A result of at most 99 digits is rounded once. -/
theorem not_missesScale_of_exact {mode : Rounding} {x : ℚ}
    (h : mode.roundAt (lastPlace x) x = x) (scale : Int) : ¬ MissesScale mode scale x := by
  intro hmisses
  have hiff := roundAt_lastPlace_iff mode hmisses.1.le
  rw [h] at hiff
  exact hiff.1 rfl hmisses

/-- A number of at most 99 digits at a scale has its last digit no later. -/
theorem lastPlace_le {m : Number} (hm : defaultContext.Holds m) {x : ℚ}
    (h : (10 : ℚ) ^ Int.log 10 |x| ≤ |m.value|) : lastPlace x ≤ m.exponent := by
  have hnonzero : m.coefficient ≠ 0 := by
    intro hzero
    rw [Number.value_eq_zero_iff.2 hzero, abs_zero] at h
    exact absurd h (not_le.2 (ten_zpow_pos _))
  have hadjusted := (Number.zpow_le_abs_value_iff hnonzero _).1 h
  have hdigits : m.digits ≤ maxPrec := hm.digits
  rw [Number.adjusted] at hadjusted
  simp only [lastPlace]
  omega

/-! ## A sum below one half -/

/-- `0.4` and 98 nines. -/
def belowHalf : Number := ⟨false, 5 * 10 ^ 98 - 1, -99⟩

/-- `5E-100`. -/
def fiveMore : Number := ⟨false, 5, -100⟩

theorem digits_belowHalf : belowHalf.digits = 99 := by
  have hlow : 98 < belowHalf.digits :=
    (lt_length_decimal_iff (by decide)).2 (by decide : 10 ^ 98 ≤ 5 * 10 ^ 98 - 1)
  have hhigh : belowHalf.digits ≤ 99 :=
    (length_decimal_le_iff (by decide)).2 (by decide : 5 * 10 ^ 98 - 1 < 10 ^ 99)
  omega

theorem adjusted_belowHalf : belowHalf.adjusted = -1 := by
  rw [Number.adjusted, digits_belowHalf]
  rfl

theorem has_belowHalf : BigDecimal.Has ⟨some (.finite belowHalf)⟩ belowHalf := by
  refine ⟨rfl, digits_belowHalf.le, fun hzero => absurd hzero (by decide), fun _ => ?_⟩
  rw [adjusted_belowHalf]
  decide

theorem has_fiveMore : BigDecimal.Has ⟨some (.finite fiveMore)⟩ fiveMore :=
  ⟨rfl, by decide, by decide, by decide⟩

/-- The exact sum: `0.4`, 98 nines and a five. -/
def exactSum : ℚ := ((5 * 10 ^ 99 - 5 : Nat) : ℚ) / (10 ^ 100 : Nat)

theorem exact_eq_exactSum :
    Arithmetic.add.exact belowHalf.value fiveMore.value = some exactSum := by
  rw [Arithmetic.exact, Option.some.injEq]
  simp only [Number.value, belowHalf, fiveMore, signed, exactSum]
  norm_num

theorem exactSum_pos : 0 < exactSum := by
  simp only [exactSum]
  norm_num

theorem lastPlace_sum : lastPlace exactSum = -99 := by
  have hlow : (10 : ℚ) ^ (-1 : ℤ) ≤ exactSum := by
    simp only [exactSum]
    norm_num
  have hhigh : exactSum < (10 : ℚ) ^ (0 : ℤ) := by
    simp only [exactSum]
    norm_num
  have hge : -1 ≤ Int.log 10 exactSum :=
    (Int.zpow_le_iff_le_log (by decide) exactSum_pos).1 (by exact_mod_cast hlow)
  have hlt : Int.log 10 exactSum < 0 :=
    (Int.lt_zpow_iff_log_lt (by decide) exactSum_pos).1 (by exact_mod_cast hhigh)
  simp only [lastPlace, maxPrec]
  rw [abs_of_pos exactSum_pos]
  omega

/-- At the scale the sum is rounded to zero. -/
theorem roundAt_sum : Rounding.halfUp.roundAt 0 exactSum = 0 := by
  have hquotient : exactSum / 10 ^ (0 : ℤ) =
      signed false (((5 * 10 ^ 99 - 5 : Nat) : ℚ) / (10 ^ 100 : Nat)) := by
    rw [zpow_zero, div_one]
    rfl
  have hmagnitude : Rounding.halfUp.magnitude false (5 * 10 ^ 99 - 5) (10 ^ 100) = 0 := by decide
  rw [Rounding.roundAt, hquotient, Rounding.round_signed _ _ _ (Nat.pow_pos (by decide)),
    hmagnitude]
  exact zero_mul _

/-- To 99 digits it is rounded to one half. -/
theorem roundAt_sum_lastPlace : Rounding.halfUp.roundAt (lastPlace exactSum) exactSum = 1 / 2 := by
  have hquotient : exactSum / 10 ^ (-99 : ℤ) =
      signed false (((5 * 10 ^ 99 - 5 : Nat) : ℚ) / (10 : Nat)) := by
    simp only [exactSum, signed]
    norm_num
  have hmagnitude : Rounding.halfUp.magnitude false (5 * 10 ^ 99 - 5) 10 = 5 * 10 ^ 98 := by decide
  rw [lastPlace_sum, Rounding.roundAt, hquotient, Rounding.round_signed _ _ _ (by decide),
    hmagnitude]
  simp only [signed]
  norm_num

theorem round_half : Rounding.halfUp.roundAt 0 (1 / 2) = 1 := by
  have hquotient : (1 / 2 : ℚ) / 10 ^ (0 : ℤ) = signed false (((1 : Nat) : ℚ) / (2 : Nat)) := by
    simp only [signed]
    norm_num
  have hmagnitude : Rounding.halfUp.magnitude false 1 2 = 1 := by decide
  rw [Rounding.roundAt, hquotient, Rounding.round_signed _ _ _ (by decide), hmagnitude]
  simp only [signed]
  norm_num

/-- The `Precision` of whole numbers. -/
def wholePrecision : Precision := ⟨{ (mpdInit maxPrec).1 with round := .halfUp }, 0⟩

theorem new_wholePrecision : Precision.new .roundHalfUp 0 = .ok wholePrecision :=
  Precision.new_eq_ok_iff.2 ⟨by decide, .halfUp, rfl, rfl⟩

theorem rounding_sum : wholePrecision.ctx.rounding exactSum = 1 / 2 := roundAt_sum_lastPlace

/-- The sum raises no condition but those of rounding. -/
theorem mild_sum : Context.Mild (Arithmetic.add.library Mpd.reference wholePrecision.ctx
    (.finite belowHalf) (.finite fiveMore)).2 := by
  have hsupported := Precision.supported new_wholePrecision
  have hexact := exact_eq_exactSum
  rw [Arithmetic.exact, Option.some.injEq] at hexact
  have hnormal : (10 : ℚ) ^ wholePrecision.ctx.emin ≤ |exactSum| := by
    have hlow : (10 : ℚ) ^ (-1 : ℤ) ≤ |exactSum| := by
      rw [abs_of_pos exactSum_pos]
      simp only [exactSum]
      norm_num
    exact (zpow_le_zpow_right₀ (by norm_num) (by decide)).trans hlow
  have hrange :
      |wholePrecision.ctx.rounding exactSum| < (10 : ℚ) ^ (wholePrecision.ctx.emax + 1) := by
    have hone : (1 : ℚ) ≤ 10 ^ (wholePrecision.ctx.emax + 1) :=
      one_le_zpow₀ (by norm_num) (by decide)
    rw [rounding_sum]
    exact lt_of_lt_of_le (by norm_num) hone
  rw [Arithmetic.library_add, Mpd.reference_conforms.add _ hsupported, Context.add, hexact]
  exact Context.mild_result exactSum_pos.ne' hnormal hrange _ _

theorem callTo_sum :
    ∃ c n, Arithmetic.add.callTo Mpd.reference ⟨some (.finite belowHalf)⟩
      ⟨some (.finite fiveMore)⟩ wholePrecision = .ok c ∧ c.Has n ∧ n.value = 1 := by
  obtain ⟨x, first, hexact, hfirst, -, hvalue, -⟩ := Arithmetic.outcome_of_mild
    Mpd.reference_conforms (Precision.supported new_wholePrecision) mild_sum
  rw [exact_eq_exactSum, Option.some.injEq] at hexact
  rw [← hexact, rounding_sum] at hvalue
  have hone : ((defaultWith .halfUp).atExponent first (-0)).value = 1 := by
    rw [Context.value_atExponent, hvalue, neg_zero]
    exact round_half
  have hcoefficient : ((defaultWith .halfUp).atExponent first (-0)).coefficient = 1 := by
    have habs := Number.abs_value ((defaultWith .halfUp).atExponent first (-0))
    have hexponent : ((defaultWith .halfUp).atExponent first (-0)).exponent = 0 := rfl
    rw [hone, hexponent, zpow_zero, mul_one, abs_one] at habs
    exact_mod_cast habs.symm
  have hholds : defaultContext.Holds ((defaultWith .halfUp).atExponent first (-0)) :=
    Context.holds_powerOfTen (by decide) hcoefficient
      (show (-9999999999 : Int) ≤ -0 by decide) (show (-0 : Int) ≤ 9999999999 by decide)
  refine ⟨⟨some (.finite ((defaultWith .halfUp).atExponent first (-0)))⟩, _, ?_,
    ⟨rfl, hholds⟩, hone⟩
  rw [Arithmetic.callTo_eq, BigDecimal.operateTo_eq_ok_iff Mpd.reference_conforms]
  refine ⟨_, _, rfl, rfl, mild_sum, ?_⟩
  rw [BigDecimal.setScale_eq_ok_iff Mpd.reference_conforms (congrArg some hfirst)]
  exact ⟨by decide, by decide, .halfUp, rfl, rfl, hholds⟩

theorem run_sum :
    run Mpd.reference [.construct (some belowHalf.toSci), .construct (some fiveMore.toSci)] =
      [⟨some (.finite belowHalf)⟩, ⟨some (.finite fiveMore)⟩] := by
  have hplain : belowHalf.Plain := ⟨by decide, by rw [adjusted_belowHalf]; decide⟩
  have hbelowHalf : belowHalf.toSci.length ≤ maxPrec + 10 := by
    have hlength := Number.length_toSci_of_plain hplain
    rw [digits_belowHalf] at hlength
    exact hlength.trans (by decide)
  have hfiveMore : fiveMore.toSci.length ≤ maxPrec + 10 := by decide
  rw [run_construct_construct, BigDecimal.ofString_toSci Mpd.reference_conforms
    has_belowHalf.holds hbelowHalf, BigDecimal.ofString_toSci Mpd.reference_conforms
    has_fiveMore.holds hfiveMore]
  rfl

/-! ## Results -/

/-- **When a result with a `Precision` is rounded once.** On reachable objects, a result that is
returned is the exact one rounded to the scale, exactly where the exact one rounded to 99 digits
does not miss a tie of the scale. -/
theorem rounded_once_iff {mpd : Mpd} (hmpd : mpd.Conforms) (ops : List Operation)
    {self num c : BigDecimal} (hself : self ∈ run mpd ops) (hnum : num ∈ run mpd ops)
    {op : Arithmetic} {roundType : RoundType} {scale : Int} {prec : Precision}
    (hprec : Precision.new roundType scale = .ok prec)
    (hcall : op.callTo mpd self num prec = .ok c) :
    ∃ a b n mode x, self.Has a ∧ num.Has b ∧ c.Has n ∧ mapRoundType roundType = some mode ∧
      op.exact a.value b.value = some x ∧
      (n.value = mode.roundAt (-scale) x ↔ ¬ MissesScale mode scale x) := by
  obtain ⟨a, b, ha, hb⟩ :=
    operands_of_callTo hmpd (valid_run hmpd ops hself) (valid_run hmpd ops hnum) hcall
  obtain ⟨x, first, n, hexact, -, hfirst, -, -, hn, hexponent, hvalue⟩ :=
    rounded_of_callTo hmpd ha.data hb.data (Precision.supported hprec) hcall
  obtain ⟨-, mode, hmode, rfl⟩ := Precision.new_eq_ok_iff.1 hprec
  refine ⟨a, b, n, mode, x, ha, hb, hn, hmode, hexact, ?_⟩
  have hrounding : first.value = mode.roundAt (lastPlace x) x := hfirst
  have htwice : n.value = mode.roundAt (-scale) (mode.roundAt (lastPlace x) x) := by
    rw [← hrounding]
    exact hvalue
  rcases le_or_gt (lastPlace x) (-scale) with hle | hgt
  · rw [htwice]
    exact roundAt_lastPlace_iff mode hle
  · -- a number with digits behind the scale has too many at the scale, unless it is zero
    have hzero : x = 0 := by
      by_contra hx
      have hmagnitude : (10 : ℚ) ^ Int.log 10 |x| ≤ |n.value| := by
        rw [htwice, mode.roundAt_of_le hgt.le, ← hrounding, hfirst]
        exact Context.zpow_log_le_abs_rounding hx (show 0 < 99 by decide)
      have hplace := lastPlace_le hn.holds hmagnitude
      rw [hexponent] at hplace
      exact absurd hplace (not_le.2 hgt)
    refine iff_of_true ?_ fun hmisses => absurd hmisses.1 (not_lt.2 hgt.le)
    rw [htwice, hzero, Rounding.roundAt_zero, Rounding.roundAt_zero]

/-- The sum in whole numbers. -/
theorem rounded_once_iff_sum :
    ∃ c a b n mode x,
      Arithmetic.add.callTo Mpd.reference ⟨some (.finite belowHalf)⟩ ⟨some (.finite fiveMore)⟩
        wholePrecision = .ok c ∧
      BigDecimal.Has ⟨some (.finite belowHalf)⟩ a ∧ BigDecimal.Has ⟨some (.finite fiveMore)⟩ b ∧
      c.Has n ∧ mapRoundType .roundHalfUp = some mode ∧
      Arithmetic.add.exact a.value b.value = some x ∧
      (n.value = mode.roundAt (-0) x ↔ ¬ MissesScale mode 0 x) := by
  obtain ⟨c, -, hcall, -, -⟩ := callTo_sum
  obtain ⟨a, b, n, mode, x, hiff⟩ := rounded_once_iff Mpd.reference_conforms
    [.construct (some belowHalf.toSci), .construct (some fiveMore.toSci)]
    (run_sum ▸ List.mem_cons_self) (run_sum ▸ List.mem_cons_of_mem _ List.mem_cons_self)
    new_wholePrecision hcall
  exact ⟨c, a, b, n, mode, x, hcall, hiff⟩

/-- **A result that is rounded twice.** `0.4` with 98 nines, and `5E-100` more, is below one half;
the sum as a whole number, with ties rounded up, is one. -/
theorem below_half_rounded_up :
    ∃ ops self num prec c a b n, self ∈ run Mpd.reference ops ∧ num ∈ run Mpd.reference ops ∧
      Precision.new .roundHalfUp 0 = .ok prec ∧
      Arithmetic.add.callTo Mpd.reference self num prec = .ok c ∧
      self.Has a ∧ num.Has b ∧ c.Has n ∧
      n.value ≠ Rounding.halfUp.roundAt 0 (a.value + b.value) := by
  obtain ⟨c, n, hcall, hc, hvalue⟩ := callTo_sum
  have hexact := exact_eq_exactSum
  rw [Arithmetic.exact, Option.some.injEq] at hexact
  refine ⟨[.construct (some belowHalf.toSci), .construct (some fiveMore.toSci)], _, _, _, c, _, _,
    n, ?_, ?_, new_wholePrecision, hcall, has_belowHalf, has_fiveMore, hc, ?_⟩
  · rw [run_sum]
    exact List.mem_cons_self
  · rw [run_sum]
    exact List.mem_cons_of_mem _ List.mem_cons_self
  · rw [hvalue, hexact, roundAt_sum]
    exact one_ne_zero

end Ssgx.Decimal
