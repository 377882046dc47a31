import Ssgx.Decimal.Values

/-!
# Reachable numbers

Runs of constructions, assignments and operations over the objects made before. Every object of a
run has a number of the default context or none (`valid_run`), so on reachable objects the
operations without a `Precision` throw or are exact (`reachable_exact`). A number of the default
context has at most 99 digits and, other than zero, an adjusted exponent in the range of the
context; a zero may have an exponent below it, as far down as the least exponent of a number
(`zero_below_emin`).
-/

set_option autoImplicit false

namespace Ssgx.Decimal

open Ssgx.Support

/-! ## Runs -/

/-- The public constructors and operations, on objects by their place in the list of those made
before. -/
inductive Operation where
  | construct (text : Option Str)
  | constructDefault
  | copyConstruct (num : Nat)
  | moveConstruct (num : Nat)
  | copyAssign (self num : Nat)
  | moveAssign (self num : Nat)
  | calculate (op : Arithmetic) (self num : Nat)
  | calculateTo (op : Arithmetic) (self num : Nat) (roundType : RoundType) (scale : Int)
  | setScale (self : Nat) (scale : Int) (roundType : RoundType)
  | neg (self : Nat)

/-- The objects with the one that a call returns. -/
def returned (objects : List BigDecimal) : Except Failure BigDecimal → List BigDecimal
  | .ok x => objects ++ [x]
  | .error _ => objects

/-- What is done with an object. There is nothing to do where there is none. -/
def onObject (objects : List BigDecimal) (i : Nat) (f : BigDecimal → List BigDecimal) :
    List BigDecimal :=
  match objects[i]? with
  | some x => f x
  | none => objects

/-- One construction, assignment or operation. A moved object is left without a number, and an
object that is assigned to itself is left as it is. -/
def step (mpd : Mpd) (objects : List BigDecimal) : Operation → List BigDecimal
  | .construct text => returned objects (BigDecimal.ofString mpd text)
  | .constructDefault => returned objects (BigDecimal.default mpd)
  | .copyConstruct num => onObject objects num fun y => returned objects (BigDecimal.copy mpd y)
  | .moveConstruct num => onObject objects num fun y => objects.set num ⟨none⟩ ++ [y]
  | .copyAssign self num => onObject objects self fun x => onObject objects num fun y =>
      if self = num then objects else objects.set self (BigDecimal.assign mpd x y).2
  | .moveAssign self num => onObject objects self fun _ => onObject objects num fun y =>
      if self = num then objects else (objects.set self y).set num ⟨none⟩
  | .calculate op self num => onObject objects self fun x => onObject objects num fun y =>
      returned objects (op.call mpd x y)
  | .calculateTo op self num roundType scale =>
      onObject objects self fun x => onObject objects num fun y =>
        returned objects ((Precision.new roundType scale).bind (op.callTo mpd x y))
  | .setScale self scale roundType => onObject objects self fun x =>
      returned objects (BigDecimal.setScale mpd x scale roundType)
  | .neg self => onObject objects self fun x => returned objects (BigDecimal.neg mpd x)

/-- The objects after a run. -/
def run (mpd : Mpd) (ops : List Operation) : List BigDecimal := runFrom (step mpd) [] ops

theorem run_construct (mpd : Mpd) (text : Option Str) :
    run mpd [.construct text] = returned [] (BigDecimal.ofString mpd text) := rfl

/-! ## The invariant -/

/-- Every object has a number of the default context, if it has one. -/
def AllValid (objects : List BigDecimal) : Prop := ∀ x ∈ objects, x.Valid

theorem BigDecimal.Has.valid {x : BigDecimal} {n : Number} (h : x.Has n) : x.Valid :=
  fun _ => ⟨n, h⟩

/-- A valid object with a number. -/
theorem BigDecimal.Valid.has {x : BigDecimal} (h : x.Valid) {d : Numeral} (hd : x.data = some d) :
    ∃ n, x.Has n ∧ d = .finite n := by
  have hdata : x.data ≠ none := by
    rw [hd]
    exact Option.some_ne_none d
  obtain ⟨n, hn⟩ := h hdata
  refine ⟨n, hn, ?_⟩
  have hboth := hd.symm.trans hn.data
  rwa [Option.some.injEq] at hboth

theorem valid_none : BigDecimal.Valid ⟨none⟩ := fun h => absurd rfl h

theorem allValid_append {objects : List BigDecimal} (h : AllValid objects) {x : BigDecimal}
    (hx : x.Valid) : AllValid (objects ++ [x]) := by
  intro y hy
  rcases List.mem_append.1 hy with hy | hy
  · exact h y hy
  · rw [List.mem_singleton.1 hy]
    exact hx

theorem allValid_set {objects : List BigDecimal} (h : AllValid objects) {x : BigDecimal}
    (hx : x.Valid) (i : Nat) : AllValid (objects.set i x) := by
  intro y hy
  rcases List.mem_or_eq_of_mem_set hy with hy | rfl
  · exact h y hy
  · exact hx

theorem allValid_returned {objects : List BigDecimal} (h : AllValid objects)
    {outcome : Except Failure BigDecimal} (houtcome : ∀ x, outcome = .ok x → x.Valid) :
    AllValid (returned objects outcome) := by
  cases outcome with
  | error e => exact h
  | ok x => exact allValid_append h (houtcome x rfl)

theorem allValid_onObject {objects : List BigDecimal} (h : AllValid objects) {i : Nat}
    {f : BigDecimal → List BigDecimal} (hf : ∀ x, x.Valid → AllValid (f x)) :
    AllValid (onObject objects i f) := by
  simp only [onObject]
  cases hi : objects[i]? with
  | none => exact h
  | some x => exact hf x (h x (List.mem_of_getElem? hi))

section

variable {mpd : Mpd} (hmpd : mpd.Conforms)
include hmpd

/-- The operands of an operation that returns. -/
theorem operands_of_call {op : Arithmetic} {self num c : BigDecimal} (hself : self.Valid)
    (hnum : num.Valid) (h : op.call mpd self num = .ok c) : ∃ a b, self.Has a ∧ num.Has b := by
  rw [op.call_eq, BigDecimal.operate_eq_ok_iff hmpd] at h
  obtain ⟨d, e, hd, he, -, -⟩ := h
  obtain ⟨a, ha, -⟩ := hself.has hd
  obtain ⟨b, hb, -⟩ := hnum.has he
  exact ⟨a, b, ha, hb⟩

/-- The operands of an operation with a `Precision` that returns. -/
theorem operands_of_callTo {op : Arithmetic} {self num c : BigDecimal} (hself : self.Valid)
    (hnum : num.Valid) {prec : Precision} (h : op.callTo mpd self num prec = .ok c) :
    ∃ a b, self.Has a ∧ num.Has b := by
  rw [op.callTo_eq, BigDecimal.operateTo_eq_ok_iff hmpd] at h
  obtain ⟨d, e, hd, he, -, -⟩ := h
  obtain ⟨a, ha, -⟩ := hself.has hd
  obtain ⟨b, hb, -⟩ := hnum.has he
  exact ⟨a, b, ha, hb⟩

/-- The operand of a negation that returns. -/
theorem operand_of_neg {self c : BigDecimal} (hself : self.Valid) (h : self.neg mpd = .ok c) :
    ∃ a, self.Has a := by
  obtain ⟨d, hd, -, -⟩ := (BigDecimal.neg_eq_ok_iff hmpd).1 h
  obtain ⟨a, ha, -⟩ := hself.has hd
  exact ⟨a, ha⟩

theorem valid_calculate {op : Arithmetic} {self num c : BigDecimal} (hself : self.Valid)
    (hnum : num.Valid) (h : op.call mpd self num = .ok c) : c.Valid := by
  obtain ⟨a, b, ha, hb⟩ := operands_of_call hmpd hself hnum h
  obtain ⟨n, hn, -⟩ := exact_of_call hmpd ha.data hb.data h
  exact hn.valid

theorem valid_calculateTo {op : Arithmetic} {self num c : BigDecimal} (hself : self.Valid)
    (hnum : num.Valid) {prec : Precision} (hprec : Supported prec.ctx)
    (h : op.callTo mpd self num prec = .ok c) : c.Valid := by
  obtain ⟨a, b, ha, hb⟩ := operands_of_callTo hmpd hself hnum h
  obtain ⟨-, -, n, -, -, -, -, -, hn, -⟩ := rounded_of_callTo hmpd ha.data hb.data hprec h
  exact hn.valid

theorem valid_setScale {self c : BigDecimal} (hself : self.Valid) {scale : Int}
    {roundType : RoundType} (h : self.setScale mpd scale roundType = .ok c) : c.Valid := by
  obtain ⟨n, hn⟩ := hself (BigDecimal.data_of_setScale hmpd h)
  obtain ⟨-, -, mode, -, hc⟩ := (BigDecimal.setScale_eq_ok_iff hmpd hn.data).1 h
  exact hc.valid

theorem valid_neg {self c : BigDecimal} (hself : self.Valid) (h : self.neg mpd = .ok c) :
    c.Valid := by
  obtain ⟨a, ha⟩ := operand_of_neg hmpd hself h
  obtain ⟨n, hn, -⟩ := exact_of_neg hmpd ha h
  exact hn.valid

theorem valid_ofString {text : Option Str} {x : BigDecimal}
    (h : BigDecimal.ofString mpd text = .ok x) : x.Valid := by
  obtain ⟨n, hn⟩ := BigDecimal.has_of_ofString hmpd h
  exact hn.valid

/-- **One step keeps the invariant.** -/
theorem allValid_step {objects : List BigDecimal} (h : AllValid objects) (op : Operation) :
    AllValid (step mpd objects op) := by
  cases op with
  | construct text => exact allValid_returned h fun x hx => valid_ofString hmpd hx
  | constructDefault => exact allValid_returned h fun x hx => valid_ofString hmpd hx
  | copyConstruct num =>
      apply allValid_onObject h
      intro y hy
      apply allValid_returned h
      intro x hx
      rw [BigDecimal.copy_eq hmpd hx]
      exact hy
  | moveConstruct num =>
      apply allValid_onObject h
      intro y hy
      exact allValid_append (allValid_set h valid_none num) hy
  | copyAssign self num =>
      apply allValid_onObject h
      intro x hx
      apply allValid_onObject h
      intro y hy
      -- an object that is assigned to itself is left as it is
      split_ifs
      · exact h
      · apply allValid_set h
        rcases BigDecimal.assign_eq hmpd x y with heq | heq
        · rw [heq]
          exact hy
        · rw [heq]
          exact hx
  | moveAssign self num =>
      apply allValid_onObject h
      intro x hx
      apply allValid_onObject h
      intro y hy
      -- what was moved from holds no number, and is valid as it is
      split_ifs
      · exact h
      · exact allValid_set (allValid_set h hy self) valid_none num
  | calculate op self num =>
      apply allValid_onObject h
      intro x hx
      apply allValid_onObject h
      intro y hy
      exact allValid_returned h fun c hc => valid_calculate hmpd hx hy hc
  | calculateTo op self num roundType scale =>
      apply allValid_onObject h
      intro x hx
      apply allValid_onObject h
      intro y hy
      apply allValid_returned h
      intro c hc
      obtain ⟨prec, hprec, hcall⟩ := bind_eq_ok_iff.1 hc
      exact valid_calculateTo hmpd hx hy (Precision.supported hprec) hcall
  | setScale self scale roundType =>
      apply allValid_onObject h
      intro x hx
      exact allValid_returned h fun c hc => valid_setScale hmpd hx hc
  | neg self =>
      apply allValid_onObject h
      intro x hx
      exact allValid_returned h fun c hc => valid_neg hmpd hx hc

/-- **Every object of a run** has a number of the default context, if it has one. -/
theorem valid_run (ops : List Operation) {x : BigDecimal} (hx : x ∈ run mpd ops) : x.Valid := by
  have hstep : ∀ objects op, True → AllValid objects → AllValid (step mpd objects op) :=
    fun objects op _ h => allValid_step hmpd h op
  have hrun : AllValid (run mpd ops) := invariant_runFrom hstep
    (along_of_forall (fun _ _ => trivial) [] ops) fun y hy => absurd hy List.not_mem_nil
  exact hrun x hx

end

/-! ## Calls that throw -/

/-- The call throws. -/
def Throws {α : Type} (x : Except Failure α) : Prop :=
  ∃ code text, x = .error (.thrown code text)

/-- The call throws or returns. -/
def Defined {α : Type} (x : Except Failure α) : Prop := Throws x ∨ ∃ a, x = .ok a

theorem defined_bind {α β : Type} {x : Except Failure α} {f : α → Except Failure β}
    (hx : Defined x) (hf : ∀ a, x = .ok a → Defined (f a)) : Defined (x >>= f) := by
  rcases hx with ⟨code, text, rfl⟩ | ⟨a, rfl⟩
  · exact .inl ⟨code, text, rfl⟩
  · exact hf a rfl

theorem defined_assertThrow (expression : Str) (data : Option Numeral) :
    Defined (assertThrow expression data) := by
  cases data with
  | none => exact .inl ⟨_, _, rfl⟩
  | some d => exact .inr ⟨d, rfl⟩

theorem defined_checked {α : Type} (code : Int) (ignoreRounding : Bool)
    (outcome : α × List Condition) : Defined (checked code ignoreRounding outcome) := by
  simp only [checked]
  split_ifs
  · exact .inr ⟨_, rfl⟩
  · exact .inl ⟨_, _, rfl⟩

section

variable {mpd : Mpd} (hmpd : mpd.Conforms)
include hmpd

theorem defined_call (op : Arithmetic) (self num : BigDecimal) :
    Defined (op.call mpd self num) := by
  rw [op.call_eq]
  refine defined_bind (.inr ⟨_, BigDecimal.default_eq hmpd⟩) fun _ _ => ?_
  apply defined_bind (defined_assertThrow _ _)
  intro b _
  apply defined_bind (defined_assertThrow _ _)
  intro a _
  exact defined_bind (defined_checked _ _ _) fun d _ => .inr ⟨_, rfl⟩

theorem defined_neg (self : BigDecimal) : Defined (self.neg mpd) := by
  have hdefault := BigDecimal.default_eq hmpd
  refine defined_bind (.inr ⟨_, hdefault⟩) fun _ _ => ?_
  refine defined_bind (.inr ⟨_, hdefault⟩) fun zero hzero => ?_
  apply defined_bind (defined_assertThrow _ _)
  intro a _
  -- the pointer of the default number is not null
  have hpointer : dereference zero.data = .ok (.finite ⟨false, 0, 0⟩) := by
    rw [hdefault] at hzero
    cases hzero
    rfl
  refine defined_bind (.inr ⟨_, hpointer⟩) fun z _ => ?_
  exact defined_bind (defined_checked _ _ _) fun d _ => .inr ⟨_, rfl⟩

/-- **On reachable objects, the operations without a `Precision` throw or are exact.** The result is
a number of the default context: finite, of at most 99 digits and, if it is not zero, with its
adjusted exponent in the range of the context. -/
theorem reachable_exact (ops : List Operation) {self num : BigDecimal} (hself : self ∈ run mpd ops)
    (hnum : num ∈ run mpd ops) :
    (∀ op : Arithmetic, Throws (op.call mpd self num) ∨
      ∃ c a b n, op.call mpd self num = .ok c ∧ self.Has a ∧ num.Has b ∧ c.Has n ∧
        op.exact a.value b.value = some n.value) ∧
    (Throws (self.neg mpd) ∨
      ∃ c a n, self.neg mpd = .ok c ∧ self.Has a ∧ c.Has n ∧ n.value = -a.value) := by
  constructor
  · intro op
    rcases defined_call hmpd op self num with hthrows | ⟨c, hc⟩
    · exact .inl hthrows
    · obtain ⟨a, b, ha, hb⟩ :=
        operands_of_call hmpd (valid_run hmpd ops hself) (valid_run hmpd ops hnum) hc
      obtain ⟨n, hn, hexact⟩ := exact_of_call hmpd ha.data hb.data hc
      exact .inr ⟨c, a, b, n, hc, ha, hb, hn, hexact⟩
  · rcases defined_neg hmpd self with hthrows | ⟨c, hc⟩
    · exact .inl hthrows
    · obtain ⟨a, ha⟩ := operand_of_neg hmpd (valid_run hmpd ops hself) hc
      obtain ⟨n, hn, hexact⟩ := exact_of_neg hmpd ha hc
      exact .inr ⟨c, a, n, hc, ha, hn, hexact⟩

end

/-! ## Two numbers -/

/-- A number with a sign and a fraction. -/
def debit : Number := ⟨true, 12345, -3⟩

/-- A number with an exponent. -/
def credit : Number := ⟨false, 678, 7⟩

/-- What they are together. -/
def balance : Number := ⟨false, 6779999987655, -3⟩

theorem has_debit : BigDecimal.Has ⟨some (.finite debit)⟩ debit :=
  ⟨rfl, by decide, by decide, by decide⟩

theorem has_credit : BigDecimal.Has ⟨some (.finite credit)⟩ credit :=
  ⟨rfl, by decide, by decide, by decide⟩

theorem has_balance : BigDecimal.Has ⟨some (.finite balance)⟩ balance :=
  ⟨rfl, by decide, by decide, by decide⟩

theorem value_debit : debit.value = -12345 / 1000 := by
  simp only [debit, Number.value, signed]
  norm_num

theorem value_credit : credit.value = 6780000000 := by
  simp only [credit, Number.value, signed]
  norm_num

theorem value_balance : balance.value = 6779999987655 / 1000 := by
  simp only [balance, Number.value, signed]
  norm_num

/-- Two constructions from texts. -/
theorem run_construct_construct (mpd : Mpd) (text text' : Option Str) :
    run mpd [.construct text, .construct text'] =
      returned (returned [] (BigDecimal.ofString mpd text)) (BigDecimal.ofString mpd text') := rfl

/-- The texts of the two numbers, and the objects that are constructed from them. -/
theorem run_debit_credit :
    run Mpd.reference [.construct (some (str "-12.345")), .construct (some (str "6.78E+9"))] =
      [⟨some (.finite debit)⟩, ⟨some (.finite credit)⟩] := by
  have hdebit : debit.toSci = str "-12.345" := by decide
  have hcredit : credit.toSci = str "6.78E+9" := by decide
  have hfirst : BigDecimal.ofString Mpd.reference (some (str "-12.345")) =
      .ok ⟨some (.finite debit)⟩ := by
    apply BigDecimal.ofString_of_result Mpd.reference_conforms (by decide) (by decide)
    rw [← hdebit]
    exact Context.ofText_toSci has_debit.holds
  have hsecond : BigDecimal.ofString Mpd.reference (some (str "6.78E+9")) =
      .ok ⟨some (.finite credit)⟩ := by
    apply BigDecimal.ofString_of_result Mpd.reference_conforms (by decide) (by decide)
    rw [← hcredit]
    exact Context.ofText_toSci has_credit.holds
  rw [run_construct_construct, hfirst, hsecond]
  rfl

theorem call_debit_credit :
    Arithmetic.add.call Mpd.reference ⟨some (.finite debit)⟩ ⟨some (.finite credit)⟩ =
      .ok ⟨some (.finite balance)⟩ := by
  have hvalue : debit.value + credit.value = balance.value := by
    rw [value_debit, value_credit, value_balance]
    norm_num
  have hadd : Mpd.reference.add defaultContext (.finite debit) (.finite credit) =
      (.finite balance, []) := by
    rw [Mpd.reference_conforms.add _ supported_defaultContext, Context.add, hvalue]
    exact Context.result_self has_balance.holds
  rw [Arithmetic.call_eq, BigDecimal.operate_eq_ok_iff Mpd.reference_conforms,
    Arithmetic.library_add]
  exact ⟨_, _, rfl, rfl, by rw [hadd], by rw [hadd]⟩

/-- The sum of `-12.345` and `6.78E+9` is exact. -/
theorem reachable_exact_sum :
    ∃ a b n, Arithmetic.add.call Mpd.reference ⟨some (.finite debit)⟩ ⟨some (.finite credit)⟩ =
        .ok ⟨some (.finite balance)⟩ ∧
      BigDecimal.Has ⟨some (.finite debit)⟩ a ∧ BigDecimal.Has ⟨some (.finite credit)⟩ b ∧
      BigDecimal.Has ⟨some (.finite balance)⟩ n ∧ a.value + b.value = n.value := by
  obtain ⟨hcalls, -⟩ := reachable_exact Mpd.reference_conforms
    [.construct (some (str "-12.345")), .construct (some (str "6.78E+9"))]
    (run_debit_credit ▸ List.mem_cons_self)
    (run_debit_credit ▸ List.mem_cons_of_mem _ List.mem_cons_self)
  rcases hcalls .add with ⟨code, text, hthrows⟩ | ⟨c, a, b, n, hcall, ha, hb, hn, hexact⟩
  · rw [call_debit_credit] at hthrows
    cases hthrows
  · rw [call_debit_credit, Except.ok.injEq] at hcall
    subst hcall
    exact ⟨a, b, n, call_debit_credit, ha, hb, hn, Option.some.inj hexact⟩

/-! ## Zeros -/

/-- A zero far below the least adjusted exponent of the default context. -/
def lowZero : Number := ⟨false, 0, -10000000050⟩

theorem has_lowZero : BigDecimal.Has ⟨some (.finite lowZero)⟩ lowZero :=
  ⟨rfl, Context.holds_zero (by decide) rfl (by decide)⟩

theorem ofString_lowZero :
    BigDecimal.ofString Mpd.reference (some (str "0E-10000000050")) =
      .ok ⟨some (.finite lowZero)⟩ := by
  have htext : lowZero.toSci = str "0E-10000000050" := by decide
  apply BigDecimal.ofString_of_result Mpd.reference_conforms (by decide) (by decide)
  rw [← htext]
  exact Context.ofText_toSci has_lowZero.holds

theorem neg_lowZero :
    BigDecimal.neg Mpd.reference ⟨some (.finite lowZero)⟩ = .ok ⟨some (.finite lowZero)⟩ := by
  have hzero : Number.value ⟨false, 0, 0⟩ + lowZero.neg.value = 0 := by
    rw [Number.value_neg, Number.value_eq_zero_iff.2 (rfl : lowZero.coefficient = 0),
      Number.value_eq_zero_iff.2 rfl, neg_zero, add_zero]
  have hsub : Mpd.reference.sub defaultContext (.finite ⟨false, 0, 0⟩) (.finite lowZero) =
      (.finite lowZero, []) := by
    rw [Mpd.reference_conforms.sub _ supported_defaultContext, Context.sub, Context.add, hzero,
      Context.result, if_pos rfl]
    decide
  refine (BigDecimal.neg_eq_ok_iff Mpd.reference_conforms).2 ⟨_, rfl, ?_, ?_⟩
  · rw [hsub]
    exact fun c hc => absurd hc List.not_mem_nil
  · rw [hsub]

/-- A negation that returns a zero with an adjusted exponent out of the range of the default
context. -/
theorem zero_below_emin :
    ∃ ops self c n, self ∈ run Mpd.reference ops ∧ self.neg Mpd.reference = .ok c ∧ c.Has n ∧
      n.adjusted < defaultContext.emin := by
  refine ⟨[.construct (some (str "0E-10000000050"))], ⟨some (.finite lowZero)⟩,
    ⟨some (.finite lowZero)⟩, lowZero, ?_, neg_lowZero, has_lowZero, by decide⟩
  rw [run_construct, ofString_lowZero]
  exact List.mem_singleton_self _

end Ssgx.Decimal
