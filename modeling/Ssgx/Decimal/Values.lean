import Ssgx.Decimal.BigDecimal

/-!
# The values of big decimals

What the operations make of numbers, and which numbers a run can reach. An operation that returns
has raised no condition that its check refuses, so the number that the library gave it is one of the
context, the exact result rounded at most once (`Arithmetic.outcome_of_mild`). Every object of a run
has a number of the default context or none (`valid_run`), and an operation without a `Precision`
throws or gives the exact result (`exact_or_throws`).
-/

set_option autoImplicit false

namespace Ssgx.Decimal

open Ssgx.Support

/-- The object has this number, one of the default context. -/
structure BigDecimal.Has (x : BigDecimal) (n : Number) : Prop where
  data : x.data = some (.finite n)
  holds : defaultContext.Holds n

/-- The object has a number of the default context, if it has one. -/
def BigDecimal.Valid (x : BigDecimal) : Prop := x.data ≠ none → ∃ n, x.Has n

/-! ## The operations -/

/-- The four operations of arithmetic. -/
inductive Arithmetic where
  | add
  | sub
  | multiply
  | div
deriving DecidableEq

namespace Arithmetic

/-- The exact result. -/
def exact : Arithmetic → ℚ → ℚ → Option ℚ
  | .add, x, y => some (x + y)
  | .sub, x, y => some (x - y)
  | .multiply, x, y => some (x * y)
  | .div, x, y => if y = 0 then none else some (x / y)

/-- The function of the library. -/
def library (mpd : Mpd) : Arithmetic → Context → Numeral → Numeral → Numeral × List Condition
  | .add => mpd.add
  | .sub => mpd.sub
  | .multiply => mpd.mul
  | .div => mpd.div

@[simp] theorem library_add (mpd : Mpd) : Arithmetic.add.library mpd = mpd.add := rfl

/-- The operation without a `Precision`. -/
def call (mpd : Mpd) : Arithmetic → BigDecimal → BigDecimal → Except Failure BigDecimal
  | .add => BigDecimal.add mpd
  | .sub => BigDecimal.sub mpd
  | .multiply => BigDecimal.multiply mpd
  | .div => BigDecimal.div mpd

/-- The operation with a `Precision`. -/
def callTo (mpd : Mpd) :
    Arithmetic → BigDecimal → BigDecimal → Precision → Except Failure BigDecimal
  | .add => BigDecimal.addTo mpd
  | .sub => BigDecimal.subTo mpd
  | .multiply => BigDecimal.multiplyTo mpd
  | .div => BigDecimal.divTo mpd

theorem call_eq (mpd : Mpd) (op : Arithmetic) :
    op.call mpd = BigDecimal.operate mpd (op.library mpd) := by
  cases op with
  | add => rfl
  | sub => rfl
  | multiply => rfl
  | div => rfl

theorem callTo_eq (mpd : Mpd) (op : Arithmetic) :
    op.callTo mpd = BigDecimal.operateTo mpd (op.library mpd) := by
  cases op with
  | add => rfl
  | sub => rfl
  | multiply => rfl
  | div => rfl

end Arithmetic

theorem holds_zero : defaultContext.Holds ⟨false, 0, 0⟩ :=
  Context.holds_zero (by decide) rfl (by decide)

section

variable {mpd : Mpd} (hmpd : mpd.Conforms)
include hmpd

namespace Arithmetic

/-- The library makes a result of the exact one, where there is an exact one. -/
theorem library_of_exact (op : Arithmetic) {ctx : Context} (hctx : Supported ctx) (a b : Number) :
    (∃ x ideal zeroNegative, op.exact a.value b.value = some x ∧
      op.library mpd ctx (.finite a) (.finite b) = ctx.result x ideal zeroNegative) ∨
    ¬ Context.Mild (op.library mpd ctx (.finite a) (.finite b)).2 := by
  cases op with
  | add => exact .inl ⟨_, _, _, rfl, hmpd.add ctx hctx a b⟩
  | sub =>
      have hsub : library mpd .sub ctx (.finite a) (.finite b) = ctx.add a b.neg :=
        hmpd.sub ctx hctx a b
      rw [hsub, Context.add, Number.value_neg, ← sub_eq_add_neg]
      exact .inl ⟨_, _, _, rfl, rfl⟩
  | multiply => exact .inl ⟨_, _, _, rfl, hmpd.mul ctx hctx a b⟩
  | div =>
      have hdiv : library mpd .div ctx (.finite a) (.finite b) = ctx.div a b :=
        hmpd.div ctx hctx a b
      rw [hdiv]
      simp only [Context.div]
      by_cases hb : b.coefficient = 0
      · refine .inr fun hmild => ?_
        rw [if_pos hb] at hmild
        split_ifs at hmild
        · exact absurd (hmild .divisionUndefined List.mem_cons_self) (by decide)
        · exact absurd (hmild .divisionByZero List.mem_cons_self) (by decide)
      · rw [if_neg hb]
        have hvalue : b.value ≠ 0 := fun h => hb (Number.value_eq_zero_iff.1 h)
        exact .inl ⟨_, _, _, if_neg hvalue, rfl⟩

/-- **What the library gives without other conditions** than `inexact` and `rounded` is a number of
the context, the exact result rounded once, and exact where `inexact` is not raised. -/
theorem outcome_of_mild {op : Arithmetic} {ctx : Context} (hctx : Supported ctx) {a b : Number}
    (hmild : Context.Mild (op.library mpd ctx (.finite a) (.finite b)).2) :
    ∃ x n, op.exact a.value b.value = some x ∧
      (op.library mpd ctx (.finite a) (.finite b)).1 = .finite n ∧ ctx.Holds n ∧
      n.value = ctx.rounding x ∧
      (.inexact ∉ (op.library mpd ctx (.finite a) (.finite b)).2 → n.value = x) := by
  rcases op.library_of_exact hmpd hctx a b with ⟨x, ideal, zeroNegative, hexact, hresult⟩ | hnot
  · rw [hresult] at hmild ⊢
    obtain ⟨n, hn⟩ := Context.result_of_mild hctx.prec_pos hmild
    exact ⟨x, n, hexact, hn⟩
  · exact absurd hmild hnot

end Arithmetic

/-! ## The constructors -/

namespace BigDecimal

/-- A text whose number raises no condition is taken, if it is short enough. -/
theorem ofString_of_result {text : Str} {n : Number} (hne : text ≠ [])
    (hlength : text.length ≤ maxPrec + 10)
    (hresult : defaultContext.ofText text = (.finite n, [])) :
    ofString mpd (some text) = .ok ⟨some (.finite n)⟩ := by
  have hset : checked (-3) false (mpd.setString defaultContext text) = .ok (.finite n) := by
    rw [hmpd.setString _ supported_defaultContext, hresult]
    exact checked_strict_iff.2 ⟨rfl, rfl⟩
  have hfinite : ¬ Special (.finite n) := id
  rw [ofString, if_neg (not_or.2 ⟨hne, not_lt.2 hlength⟩)]
  exact bind_eq_ok_iff.2 ⟨_, hset, if_neg hfinite⟩

/-- **What the constructor takes** is the text of a number of the default context, and the object
has that number. -/
theorem has_of_ofString_text {text : Str} {x : BigDecimal} (h : ofString mpd (some text) = .ok x) :
    ∃ n, Numeral.parse maxPrec text = some (.finite n) ∧ x.Has n := by
  rw [ofString] at h
  split_ifs at h
  obtain ⟨d, hd, hx⟩ := bind_eq_ok_iff.1 h
  split_ifs at hx with hspecial
  cases hx
  obtain ⟨hfirst, hstatus⟩ := checked_strict_iff.1 hd
  rw [hmpd.setString _ supported_defaultContext] at hfirst hstatus
  simp only [Context.ofText] at hfirst hstatus
  cases hparse : Numeral.parse defaultContext.prec text with
  | none =>
      rw [hparse] at hstatus
      cases hstatus
  | some numeral =>
      rw [hparse] at hfirst hstatus
      cases numeral with
      | finite n =>
          -- nothing at all was raised
          have hholds := (Context.conditions_result_self_iff (by decide)).1 hstatus
          dsimp only at hfirst
          rw [Context.result_self hholds] at hfirst
          exact ⟨n, hparse, congrArg some hfirst.symm, hholds⟩
      | infinite negative =>
          -- special values are refused behind the conversion
          cases hfirst
          exact absurd trivial hspecial
      | nan =>
          cases hfirst
          exact absurd trivial hspecial

theorem has_of_ofString {text : Option Str} {x : BigDecimal} (h : ofString mpd text = .ok x) :
    ∃ n, x.Has n := by
  cases text with
  | none => cases h
  | some text =>
      obtain ⟨n, -, hn⟩ := has_of_ofString_text hmpd h
      exact ⟨n, hn⟩

/-- The default constructor gives zero. -/
theorem default_eq : default mpd = .ok ⟨some (.finite ⟨false, 0, 0⟩)⟩ := by
  have htext : Number.toSci ⟨false, 0, 0⟩ = str "0" := rfl
  apply ofString_of_result hmpd (by decide) (by decide)
  rw [← htext]
  exact Context.ofText_toSci holds_zero

/-- A copy has the number of the original. -/
theorem copy_eq {num x : BigDecimal} (h : copy mpd num = .ok x) : x = num := by
  obtain ⟨d, hd, h⟩ := bind_eq_ok_iff.1 h
  obtain ⟨d', hd', h⟩ := bind_eq_ok_iff.1 h
  rw [assertThrow_eq_ok_iff] at hd
  rw [checked_eq_ok_iff, hmpd.copy _ supported_defaultContext] at hd'
  cases h
  obtain ⟨rfl, -⟩ := hd'
  exact (congrArg BigDecimal.mk hd).symm

/-- An assigned object has the number of the other one, or keeps its own. -/
theorem assign_eq (self num : BigDecimal) :
    (assign mpd self num).2 = num ∨ (assign mpd self num).2 = self := by
  simp only [assign]
  cases hnum : num.data with
  | none => exact .inr rfl
  | some d =>
      have hcopy : checked (-2) false (mpd.copy defaultContext d) = .ok d := by
        rw [hmpd.copy _ supported_defaultContext]
        exact checked_strict_iff.2 ⟨rfl, rfl⟩
      simp only [hcopy]
      exact .inl (congrArg BigDecimal.mk hnum).symm

/-- An operation goes on with its operands where both have a number. -/
theorem operands_eq_ok_iff {α : Type} {k : Numeral → Numeral → Except Failure α}
    {self num : BigDecimal} {c : α} :
    (do
      let _ ← default mpd
      let b ← assertThrow (str "num.ptr_data_") num.data
      let a ← assertThrow (str "ptr_data_") self.data
      k a b) = .ok c ↔ ∃ a b, self.data = some a ∧ num.data = some b ∧ k a b = .ok c := by
  rw [default_eq hmpd]
  constructor
  · intro h
    obtain ⟨_, -, h⟩ := bind_eq_ok_iff.1 h
    obtain ⟨b, hb, h⟩ := bind_eq_ok_iff.1 h
    obtain ⟨a, ha, h⟩ := bind_eq_ok_iff.1 h
    exact ⟨a, b, assertThrow_eq_ok_iff.1 ha, assertThrow_eq_ok_iff.1 hb, h⟩
  · rintro ⟨a, b, ha, hb, h⟩
    refine bind_eq_ok_iff.2 ⟨_, rfl, ?_⟩
    refine bind_eq_ok_iff.2 ⟨b, assertThrow_eq_ok_iff.2 hb, ?_⟩
    exact bind_eq_ok_iff.2 ⟨a, assertThrow_eq_ok_iff.2 ha, h⟩

/-- **An operation without a `Precision`** returns where no condition is raised. -/
theorem operate_eq_ok_iff {f : Context → Numeral → Numeral → Numeral × List Condition}
    {self num c : BigDecimal} :
    operate mpd f self num = .ok c ↔
      ∃ a b, self.data = some a ∧ num.data = some b ∧ (f defaultContext a b).2 = [] ∧
        c = ⟨some (f defaultContext a b).1⟩ := by
  refine (operands_eq_ok_iff hmpd).trans ?_
  refine exists_congr fun a => exists_congr fun b => and_congr_right fun _ =>
    and_congr_right fun _ => ?_
  rw [bind_eq_ok_iff]
  constructor
  · rintro ⟨d, hd, h⟩
    rw [checked_strict_iff] at hd
    cases h
    exact ⟨hd.2, by rw [hd.1]⟩
  · rintro ⟨hstatus, rfl⟩
    exact ⟨_, checked_strict_iff.2 ⟨rfl, hstatus⟩, rfl⟩

/-- The number of a scale. -/
theorem scaleNum_eq {scale : Int} (hlow : -2147483648 < scale) (hhigh : scale < maxPrec) :
    mpd.setString defaultContext (str "1e" ++ toText (-scale)) =
      (.finite ⟨false, 1, -scale⟩, []) := by
  have hprec : scale < 99 := hhigh
  have hmin : defaultContext.emin ≤ -scale := by
    show (-9999999999 : Int) ≤ -scale
    omega
  have hmax : -scale ≤ defaultContext.emax := by
    show -scale ≤ (9999999999 : Int)
    omega
  rw [hmpd.setString _ supported_defaultContext]
  exact Context.ofText_powerOfTen (by decide) hmin hmax

/-- **A rescaling** returns where the default context holds the number at the scale. -/
theorem setScale_eq_ok_iff {self c : BigDecimal} {a : Number} (ha : self.data = some (.finite a))
    {scale : Int} {roundType : RoundType} :
    setScale mpd self scale roundType = .ok c ↔
      -2147483648 < scale ∧ scale < maxPrec ∧ ∃ mode, mapRoundType roundType = some mode ∧
        c.Has ((defaultWith mode).atExponent a (-scale)) := by
  simp only [setScale]
  rw [default_eq hmpd]
  constructor
  · intro h
    -- every call before the last returned
    obtain ⟨_, -, h⟩ := bind_eq_ok_iff.1 h
    obtain ⟨d, hd, h⟩ := bind_eq_ok_iff.1 h
    obtain ⟨_, hscale, h⟩ := bind_eq_ok_iff.1 h
    obtain ⟨exponent, hexponent, h⟩ := bind_eq_ok_iff.1 h
    obtain ⟨scaleNum, hscaleNum, h⟩ := bind_eq_ok_iff.1 h
    obtain ⟨mode, hmode, h⟩ := bind_eq_ok_iff.1 h
    obtain ⟨q, hq, hc⟩ := bind_eq_ok_iff.1 h
    rw [assertThrow_eq_ok_iff, ha, Option.some.injEq] at hd
    rw [checkScale_eq_ok_iff] at hscale
    rw [negateInt_eq_ok_iff] at hexponent
    obtain ⟨hlow, rfl⟩ := hexponent
    rw [checked_strict_iff, scaleNum_eq hmpd hlow hscale] at hscaleNum
    rw [← hd, ← hscaleNum.1, checked_lenient_iff,
      hmpd.quantize _ (supported_defaultWith mode)] at hq
    obtain ⟨hnumber, hholds⟩ := Context.quantize_of_mild hq.2
    cases hc
    refine ⟨hlow, hscale, mode, setRound_eq_ok_iff.1 hmode, ?_, holds_defaultWith.1 hholds⟩
    exact congrArg some (hq.1.symm.trans hnumber)
  · rintro ⟨hlow, hhigh, mode, hmode, hdata, hholds⟩
    -- no scale that passes its check goes beyond the default context
    have hmin : (defaultWith mode).etiny ≤ -scale := by
      have hprec : scale < 99 := hhigh
      show (-9999999999 - (99 - 1) : Int) ≤ -scale
      omega
    have hmax : -scale ≤ (defaultWith mode).emax := by
      show -scale ≤ (9999999999 : Int)
      omega
    obtain ⟨hnumber, hmild⟩ := Context.quantize_of_holds
      (show _ ≤ (⟨false, 1, -scale⟩ : Number).exponent from hmin) hmax
      (holds_defaultWith.2 hholds)
    rw [← hmpd.quantize _ (supported_defaultWith mode)] at hnumber hmild
    refine bind_eq_ok_iff.2 ⟨_, rfl, ?_⟩
    refine bind_eq_ok_iff.2 ⟨_, assertThrow_eq_ok_iff.2 ha, ?_⟩
    refine bind_eq_ok_iff.2 ⟨(), checkScale_eq_ok_iff.2 hhigh, ?_⟩
    refine bind_eq_ok_iff.2 ⟨_, negateInt_eq_ok_iff.2 ⟨hlow, rfl⟩, ?_⟩
    refine bind_eq_ok_iff.2 ⟨.finite ⟨false, 1, -scale⟩, ?_, ?_⟩
    · rw [scaleNum_eq hmpd hlow hhigh]
      exact checked_strict_iff.2 ⟨rfl, rfl⟩
    · refine bind_eq_ok_iff.2 ⟨mode, setRound_eq_ok_iff.2 hmode, ?_⟩
      refine bind_eq_ok_iff.2 ⟨_, checked_lenient_iff.2 ⟨hnumber, hmild⟩, ?_⟩
      exact congrArg (fun data => Except.ok (BigDecimal.mk data)) hdata.symm

/-- Only an object with a number is rescaled. -/
theorem data_of_setScale {self c : BigDecimal} {scale : Int} {roundType : RoundType}
    (h : setScale mpd self scale roundType = .ok c) : self.data ≠ none := by
  simp only [setScale] at h
  rw [default_eq hmpd] at h
  obtain ⟨_, -, h⟩ := bind_eq_ok_iff.1 h
  obtain ⟨d, hd, -⟩ := bind_eq_ok_iff.1 h
  rw [assertThrow_eq_ok_iff.1 hd]
  exact Option.some_ne_none d

/-- **An operation with a `Precision`** returns where its context raises no condition but those of
rounding and the number can be rescaled. -/
theorem operateTo_eq_ok_iff {f : Context → Numeral → Numeral → Numeral × List Condition}
    {self num c : BigDecimal} {prec : Precision} :
    operateTo mpd f self num prec = .ok c ↔
      ∃ a b, self.data = some a ∧ num.data = some b ∧ Context.Mild (f prec.ctx a b).2 ∧
        setScale mpd ⟨some (f prec.ctx a b).1⟩ prec.scale
          (RoundType.ofNumber (roundNumber prec.ctx.round)) = .ok c := by
  refine (operands_eq_ok_iff hmpd).trans ?_
  refine exists_congr fun a => exists_congr fun b => and_congr_right fun _ =>
    and_congr_right fun _ => ?_
  rw [bind_eq_ok_iff]
  constructor
  · rintro ⟨d, hd, h⟩
    rw [checked_lenient_iff] at hd
    rw [hd.1]
    exact ⟨hd.2, h⟩
  · rintro ⟨hmild, h⟩
    exact ⟨_, checked_lenient_iff.2 ⟨rfl, hmild⟩, h⟩

/-- **A negation** returns where the subtraction from zero raises no condition but those of
rounding. -/
theorem neg_eq_ok_iff {self c : BigDecimal} :
    neg mpd self = .ok c ↔
      ∃ a, self.data = some a ∧
        Context.Mild (mpd.sub defaultContext (.finite ⟨false, 0, 0⟩) a).2 ∧
        c = ⟨some (mpd.sub defaultContext (.finite ⟨false, 0, 0⟩) a).1⟩ := by
  simp only [neg]
  rw [default_eq hmpd]
  constructor
  · intro h
    obtain ⟨_, -, h⟩ := bind_eq_ok_iff.1 h
    obtain ⟨zero, hzero, h⟩ := bind_eq_ok_iff.1 h
    obtain ⟨a, ha, h⟩ := bind_eq_ok_iff.1 h
    obtain ⟨z, hz, h⟩ := bind_eq_ok_iff.1 h
    obtain ⟨d, hd, hc⟩ := bind_eq_ok_iff.1 h
    cases hzero
    cases hz
    cases hc
    rw [checked_lenient_iff] at hd
    refine ⟨a, assertThrow_eq_ok_iff.1 ha, hd.2, ?_⟩
    rw [hd.1]
  · rintro ⟨a, ha, hmild, rfl⟩
    refine bind_eq_ok_iff.2 ⟨_, rfl, ?_⟩
    refine bind_eq_ok_iff.2 ⟨_, rfl, ?_⟩
    refine bind_eq_ok_iff.2 ⟨a, assertThrow_eq_ok_iff.2 ha, ?_⟩
    refine bind_eq_ok_iff.2 ⟨_, rfl, ?_⟩
    exact bind_eq_ok_iff.2 ⟨_, checked_lenient_iff.2 ⟨rfl, hmild⟩, rfl⟩

end BigDecimal

/-! ## Exact results -/

/-- **An operation without a `Precision` is exact**, on any two numbers. -/
theorem exact_of_call {op : Arithmetic} {self num c : BigDecimal} {a b : Number}
    (ha : self.data = some (.finite a)) (hb : num.data = some (.finite b))
    (h : op.call mpd self num = .ok c) :
    ∃ n, c.Has n ∧ op.exact a.value b.value = some n.value := by
  rw [op.call_eq, BigDecimal.operate_eq_ok_iff hmpd] at h
  obtain ⟨a', b', ha', hb', hstatus, rfl⟩ := h
  rw [ha, Option.some.injEq] at ha'
  rw [hb, Option.some.injEq] at hb'
  subst ha' hb'
  have hnone : ∀ c ∈ (op.library mpd defaultContext (.finite a) (.finite b)).2, False := by
    intro c hc
    rw [hstatus] at hc
    exact List.not_mem_nil hc
  obtain ⟨x, n, hexact, hnumber, hholds, -, hvalue⟩ := Arithmetic.outcome_of_mild hmpd
    supported_defaultContext fun c hc => (hnone c hc).elim
  refine ⟨n, ⟨congrArg some hnumber, hholds⟩, ?_⟩
  rw [hvalue (hnone _)]
  exact hexact

/-- **A negation is exact**: the other number is of the default context as well. -/
theorem exact_of_neg {self c : BigDecimal} {a : Number} (ha : self.Has a)
    (h : self.neg mpd = .ok c) : ∃ n, c.Has n ∧ n.value = -a.value := by
  obtain ⟨a', ha', hmild, rfl⟩ := (BigDecimal.neg_eq_ok_iff hmpd).1 h
  rw [ha.data, Option.some.injEq] at ha'
  subst ha'
  have hsub : Context.Mild
      (Arithmetic.sub.library mpd defaultContext (.finite ⟨false, 0, 0⟩) (.finite a)).2 := hmild
  obtain ⟨x, n, hexact, hnumber, hholds, hvalue, -⟩ :=
    Arithmetic.outcome_of_mild hmpd supported_defaultContext hsub
  have hzero : Number.value ⟨false, 0, 0⟩ = 0 := Number.value_eq_zero_iff.2 rfl
  have hneg : defaultContext.Holds a.neg := ⟨ha.holds.digits, ha.holds.zero, ha.holds.nonzero⟩
  refine ⟨n, ⟨congrArg some hnumber, hholds⟩, ?_⟩
  rw [Arithmetic.exact, hzero, zero_sub, ← Number.value_neg, Option.some.injEq] at hexact
  rw [hvalue, ← hexact, Context.rounding_value hneg, Number.value_neg]

/-- **An operation with a `Precision` rounds twice**: the exact result in the context of the
`Precision`, and the number of it at the scale. -/
theorem rounded_of_callTo {op : Arithmetic} {self num c : BigDecimal} {a b : Number}
    (ha : self.data = some (.finite a)) (hb : num.data = some (.finite b)) {prec : Precision}
    (hprec : Supported prec.ctx) (h : op.callTo mpd self num prec = .ok c) :
    ∃ x n m, op.exact a.value b.value = some x ∧ prec.ctx.Holds n ∧
      n.value = prec.ctx.rounding x ∧ -2147483648 < prec.scale ∧ prec.scale < maxPrec ∧
      c.Has m ∧ m.exponent = -prec.scale ∧
      m.value = prec.ctx.round.roundAt (-prec.scale) n.value := by
  rw [op.callTo_eq, BigDecimal.operateTo_eq_ok_iff hmpd] at h
  obtain ⟨a', b', ha', hb', hmild, hscale⟩ := h
  rw [ha, Option.some.injEq] at ha'
  rw [hb, Option.some.injEq] at hb'
  subst ha' hb'
  obtain ⟨x, n, hexact, hnumber, hholds, hvalue, -⟩ :=
    Arithmetic.outcome_of_mild hmpd hprec hmild
  rw [BigDecimal.setScale_eq_ok_iff hmpd (congrArg some hnumber)] at hscale
  obtain ⟨hlow, hhigh, mode, hmode, hc⟩ := hscale
  rw [mapRoundType_ofNumber, Option.some.injEq] at hmode
  subst hmode
  exact ⟨x, n, _, hexact, hholds, hvalue, hlow, hhigh, hc, rfl, Context.value_atExponent _ _ _⟩

end

end Ssgx.Decimal
