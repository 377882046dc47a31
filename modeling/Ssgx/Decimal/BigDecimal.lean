import Ssgx.Support.DecimalText
import Ssgx.Support.Run

/-!
# Big decimals

`BigDecimal` and `Precision` of `ssgx_decimal_t.cpp`, over the functions of `mpdecimal` that they
call. Every call works in a context of its own: the operations without a `Precision` in the default
context, the others in the context of the `Precision` with a rescaling in the default context behind
it. `CheckContextStatus` turns the conditions that the library adds to the status into an exception.

An object whose number was moved away has none. A run is a sequence of constructions, assignments
and operations on the objects made before; an exception leaves them as they are, except for an
assignment that has already given up its number.
-/

set_option autoImplicit false

namespace Ssgx.Decimal

open Ssgx.Support

/-! ## The decimal library -/

/-- The contexts that `mpdecimal` works in. -/
structure Supported (ctx : Context) : Prop where
  prec_pos : 0 < ctx.prec
  prec_le : ctx.prec ≤ 999999999999999999
  emax_nonneg : 0 ≤ ctx.emax
  emax_le : ctx.emax ≤ 999999999999999999
  emin_nonpos : ctx.emin ≤ 0
  le_emin : -999999999999999999 ≤ ctx.emin

/-- The functions of `mpdecimal`. A call in a context gives a number and the conditions that it adds
to the status of the context. -/
structure Mpd where
  setString : Context → Str → Numeral × List Condition
  copy : Context → Numeral → Numeral × List Condition
  add : Context → Numeral → Numeral → Numeral × List Condition
  sub : Context → Numeral → Numeral → Numeral × List Condition
  mul : Context → Numeral → Numeral → Numeral × List Condition
  div : Context → Numeral → Numeral → Numeral × List Condition
  quantize : Context → Numeral → Numeral → Numeral × List Condition
  cmp : Context → Numeral → Numeral → Int
  toSci : Numeral → Option Str

/-- The library follows the General Decimal Arithmetic specification on finite numbers. -/
structure Mpd.Conforms (mpd : Mpd) : Prop where
  setString : ∀ ctx, Supported ctx → ∀ text, mpd.setString ctx text = ctx.ofText text
  copy : ∀ ctx, Supported ctx → ∀ a, mpd.copy ctx a = (a, [])
  add : ∀ ctx, Supported ctx → ∀ a b, mpd.add ctx (.finite a) (.finite b) = ctx.add a b
  sub : ∀ ctx, Supported ctx → ∀ a b, mpd.sub ctx (.finite a) (.finite b) = ctx.sub a b
  mul : ∀ ctx, Supported ctx → ∀ a b, mpd.mul ctx (.finite a) (.finite b) = ctx.mul a b
  div : ∀ ctx, Supported ctx → ∀ a b, mpd.div ctx (.finite a) (.finite b) = ctx.div a b
  quantize : ∀ ctx, Supported ctx → ∀ a b,
    mpd.quantize ctx (.finite a) (.finite b) = ctx.quantize a b
  cmp : ∀ ctx, Supported ctx → ∀ a b, mpd.cmp ctx (.finite a) (.finite b) = a.compare b
  toSci : ∀ a : Number, mpd.toSci (.finite a) = some a.toSci

/-- A binary function on finite numbers; the other ones are invalid operands. -/
def onFinite (f : Number → Number → Numeral × List Condition) :
    Numeral → Numeral → Numeral × List Condition
  | .finite a, .finite b => f a b
  | _, _ => (.nan, [.invalidOperation])

/-- The library that is the specification on finite numbers. -/
def Mpd.reference : Mpd where
  setString := Context.ofText
  copy _ a := (a, [])
  add ctx := onFinite ctx.add
  sub ctx := onFinite ctx.sub
  mul ctx := onFinite ctx.mul
  div ctx := onFinite ctx.div
  quantize ctx := onFinite ctx.quantize
  cmp _ a b :=
    match a, b with
    | .finite a, .finite b => a.compare b
    | _, _ => 2147483647
  toSci a := some a.toSci

theorem Mpd.reference_conforms : Mpd.reference.Conforms where
  setString _ _ _ := rfl
  copy _ _ _ := rfl
  add _ _ _ _ := rfl
  sub _ _ _ _ := rfl
  mul _ _ _ _ := rfl
  div _ _ _ _ := rfl
  quantize _ _ _ _ := rfl
  cmp _ _ _ _ := rfl
  toSci _ := rfl

/-! ## Contexts and rounding types -/

/-- `RoundType`. A value that no enumerator has is `other`. -/
inductive RoundType where
  | roundUp
  | roundDown
  | roundCeiling
  | roundFloor
  | roundHalfUp
  | roundHalfDown
  | roundHalfEven
  | round05Up
  | roundTrunc
  | other (value : Int)
deriving DecidableEq

/-- `MapRoundType`; `none` is the `-1` of an invalid type, which `mpd_qsetround` refuses. -/
def mapRoundType : RoundType → Option Rounding
  | .roundUp => some .up
  | .roundDown => some .down
  | .roundCeiling => some .ceiling
  | .roundFloor => some .floor
  | .roundHalfUp => some .halfUp
  | .roundHalfDown => some .halfDown
  | .roundHalfEven => some .halfEven
  | .round05Up => some .zeroFiveUp
  | .roundTrunc => some .trunc
  | .other _ => none

/-- The number of a rounding mode among those of `mpdecimal`. -/
def roundNumber : Rounding → Int
  | .up => 0
  | .down => 1
  | .ceiling => 2
  | .floor => 3
  | .halfUp => 4
  | .halfDown => 5
  | .halfEven => 6
  | .zeroFiveUp => 7
  | .trunc => 8

/-- The rounding type with a number, as the cast of the number has it. -/
def RoundType.ofNumber : Int → RoundType
  | 0 => .roundUp
  | 1 => .roundDown
  | 2 => .roundCeiling
  | 3 => .roundFloor
  | 4 => .roundHalfUp
  | 5 => .roundHalfDown
  | 6 => .roundHalfEven
  | 7 => .round05Up
  | 8 => .roundTrunc
  | value => .other value

/-- The cast back from a rounding mode is undone by `MapRoundType`. -/
theorem mapRoundType_ofNumber (mode : Rounding) :
    mapRoundType (RoundType.ofNumber (roundNumber mode)) = some mode := by
  cases mode with
  | up => rfl
  | down => rfl
  | ceiling => rfl
  | floor => rfl
  | halfUp => rfl
  | halfDown => rfl
  | halfEven => rfl
  | zeroFiveUp => rfl
  | trunc => rfl

/-- `SSGX_MAX_PREC`. -/
def maxPrec : Nat := 99

/-- `SetDefaultContext`. -/
def defaultContext : Context := ⟨maxPrec, 9999999999, -9999999999, .halfUp⟩

/-- The default context with the rounding mode that `mpd_qsetround` sets. -/
def defaultWith (mode : Rounding) : Context := { defaultContext with round := mode }

theorem supported_defaultWith (mode : Rounding) : Supported (defaultWith mode) where
  prec_pos := show 0 < 99 by decide
  prec_le := show 99 ≤ 999999999999999999 by decide
  emax_nonneg := show (0 : Int) ≤ 9999999999 by decide
  emax_le := show (9999999999 : Int) ≤ 999999999999999999 by decide
  emin_nonpos := show (-9999999999 : Int) ≤ 0 by decide
  le_emin := show (-999999999999999999 : Int) ≤ -9999999999 by decide

theorem supported_defaultContext : Supported defaultContext := supported_defaultWith .halfUp

/-- `mpd_init`, with the conditions of an invalid precision. -/
def mpdInit (prec : Nat) : Context × List Condition :=
  (⟨prec, 999999999999999999, -999999999999999999, .halfUp⟩,
    if 0 < prec ∧ prec ≤ 999999999999999999 then [] else [.invalidContext])

theorem holds_defaultWith {mode : Rounding} {n : Number} :
    (defaultWith mode).Holds n ↔ defaultContext.Holds n :=
  ⟨fun h => ⟨h.digits, h.zero, h.nonzero⟩, fun h => ⟨h.digits, h.zero, h.nonzero⟩⟩

theorem supported_init (mode : Rounding) :
    Supported { (mpdInit maxPrec).1 with round := mode } where
  prec_pos := show 0 < 99 by decide
  prec_le := show 99 ≤ 999999999999999999 by decide
  emax_nonneg := show (0 : Int) ≤ 999999999999999999 by decide
  emax_le := le_rfl
  emin_nonpos := show (-999999999999999999 : Int) ≤ 0 by decide
  le_emin := le_rfl

/-! ## The status of a context -/

/-- The error messages of the conditions, in the order of the checks. -/
def statusMessages : List (Condition × Str) :=
  [(.clamped, str "MPD_Clamped occurred! The result's exponent exceeds the valid rangen!\n"),
    (.conversionSyntax, str
      "MPD_Conversion_syntax occurred! This may be because an invalid string was used.\n"),
    (.divisionByZero, str "MPD_Division_by_zero occurred! 0 cannot be used as a divisor.\n"),
    (.divisionImpossible, str ("MPD_Division_impossible occurred! Division operation cannot be " ++
      "performed due to the lack of sufficient precision in the current context.\n")),
    (.divisionUndefined, str
      "MPD_Division_undefined occurred! An undefined division operation is attempted.\n"),
    (.fpuError, str ("MPD_Fpu_error occurred! A floating-point error encountered in " ++
      "mathematical computations.\n")),
    (.inexact, str ("MPD_Inexact occurred! The result is inexact because it cannot be presented " ++
      "in current precision.\n")),
    (.invalidContext, str ("MPD_Invalid_context occurred! The precision must be greater than 0 " ++
      "and less than 99)!\n")),
    (.invalidOperation, str "MPD_Invalid_operation occurred! An invalid operation!\n"),
    (.mallocError, str "MPD_Malloc_error occurred! Failed to allocate memory for objects.\n"),
    (.notImplemented, str
      "MPD_Not_implemented occurred! This function is not implemented yet.\n"),
    (.overflow, str ("MPD_Overflow occurred! The result is too large to be represented as a " ++
      "normal number within the current context.\n")),
    (.rounded, str ("MPD_Rounded occurred! The result is rounded because the number of digits " ++
      "exceeds current.\n")),
    (.subnormal, str "MPD_Subnormal occurred! The result is a subnormal number.\n"),
    (.underflow, str ("MPD_Underflow occurred! The result is too small to be represented as a " ++
      "normal number within the current context.\n"))]

/-- The conditions without a message where rounding is ignored. -/
def isRounding (c : Condition) : Bool := c = .inexact ∨ c = .rounded

/-- `CheckContextStatus`: the error message. The call returns true where it is empty. -/
def checkContextStatus (status : List Condition) (ignoreRounding : Bool) : Str :=
  statusMessages.flatMap fun message =>
    if message.1 ∈ status ∧ ¬ (ignoreRounding = true ∧ isRounding message.1 = true)
    then message.2 else []

/-- Every condition has a message. -/
theorem exists_message (c : Condition) : ∃ text, (c, text) ∈ statusMessages ∧ text ≠ [] := by
  have hall : ∀ message ∈ statusMessages, message.2 ≠ [] := by simp [statusMessages]
  have hmem : c ∈ statusMessages.map Prod.fst := by
    cases c with
    | _ => decide
  obtain ⟨message, hmessage, rfl⟩ := List.mem_map.1 hmem
  exact ⟨message.2, hmessage, hall message hmessage⟩

/-- **The check passes** exactly where every condition is one of the ignored ones. -/
theorem checkContextStatus_eq_nil_iff {status : List Condition} {ignoreRounding : Bool} :
    checkContextStatus status ignoreRounding = [] ↔
      ∀ c ∈ status, ignoreRounding = true ∧ isRounding c = true := by
  simp only [checkContextStatus]
  rw [List.flatMap_eq_nil_iff]
  constructor
  · intro h c hc
    obtain ⟨text, hmessage, hne⟩ := exists_message c
    by_contra hignored
    have htext := h (c, text) hmessage
    rw [if_pos ⟨hc, hignored⟩] at htext
    exact hne htext
  · intro h message _
    exact if_neg fun hshown => hshown.2 (h message.1 hshown.1)

theorem checkContextStatus_strict {status : List Condition} :
    checkContextStatus status false = [] ↔ status = [] := by
  rw [checkContextStatus_eq_nil_iff, List.eq_nil_iff_forall_not_mem]
  refine forall_congr' fun c => imp_congr_right fun _ => ?_
  simp

theorem checkContextStatus_lenient {status : List Condition} :
    checkContextStatus status true = [] ↔ Context.Mild status := by
  rw [checkContextStatus_eq_nil_iff]
  refine forall₂_congr fun c _ => ?_
  simp only [isRounding, true_and, decide_eq_true_eq]

/-! ## Objects -/

/-- A call without a value: it throws a `LocatedException`, or its behaviour is not defined. -/
inductive Failure where
  | thrown (code : Int) (text : Str)
  | undefined
deriving DecidableEq

/-- A `Precision`: a context and a scale. -/
structure Precision where
  ctx : Context
  scale : Int

/-- A `BigDecimal`: the number behind `ptr_data_`, if there is one. -/
structure BigDecimal where
  data : Option Numeral
deriving DecidableEq

/-- What a call in a context gives, if the status passes the check. -/
def checked {α : Type} (code : Int) (ignoreRounding : Bool) (outcome : α × List Condition) :
    Except Failure α :=
  if checkContextStatus outcome.2 ignoreRounding = [] then .ok outcome.1
  else .error (.thrown code (checkContextStatus outcome.2 ignoreRounding))

/-- `ASSERT_THROW` of a number pointer. -/
def assertThrow (expression : Str) : Option Numeral → Except Failure Numeral
  | some d => .ok d
  | none => .error (.thrown (-1) expression)

/-- A number pointer that is used without an assertion. -/
def dereference : Option Numeral → Except Failure Numeral
  | some d => .ok d
  | none => .error .undefined

/-- The check of a scale. -/
def checkScale (scale : Int) : Except Failure Unit :=
  if maxPrec ≤ scale then .error (.thrown (-1) (str "Invalid parameter! scale must less than 99."))
  else .ok ()

/-- The rounding mode that `mpd_qsetround` sets. -/
def setRound (roundType : RoundType) : Except Failure Rounding :=
  match mapRoundType roundType with
  | some mode => .ok mode
  | none => .error (.thrown (-4) (str "Parameter round_type is invalid."))

/-- The negative of an `int`. That of the least one is not defined. -/
def negateInt (n : Int) : Except Failure Int :=
  if n ≤ -2147483648 then .error .undefined else .ok (-n)

/-- `Precision::Precision`. -/
def Precision.new (roundType : RoundType) (scale : Int) : Except Failure Precision := do
  let _ ← checkScale scale
  let ctx ← checked (-3) false (mpdInit maxPrec)
  let mode ← setRound roundType
  return ⟨{ ctx with round := mode }, scale⟩

/-- The numbers that the constructor refuses. -/
def Special : Numeral → Prop
  | .finite _ => False
  | .infinite _ => True
  | .nan => True

instance : DecidablePred Special := fun d =>
  match d with
  | .finite _ => isFalse id
  | .infinite _ => isTrue trivial
  | .nan => isTrue trivial

variable (mpd : Mpd)

namespace BigDecimal

/-- `BigDecimal::BigDecimal(const char* str)`; `none` is the null pointer. -/
def ofString : Option Str → Except Failure BigDecimal
  | none => .error (.thrown (-1)
      (str "Invalid parameter! str must not be empty, or its length exceeds the max."))
  | some text =>
      if text = [] ∨ maxPrec + 10 < text.length then .error (.thrown (-1)
        (str "Invalid parameter! str must not be empty, or its length exceeds the max."))
      else (checked (-3) false (mpd.setString defaultContext text)).bind fun d =>
        if Special d then .error (.thrown (-4) (str "Paramter str is an invalid number."))
        else .ok ⟨some d⟩

/-- `BigDecimal::BigDecimal()`. -/
def default : Except Failure BigDecimal := ofString mpd (some (str "0"))

/-- `BigDecimal::BigDecimal(const BigDecimal& num)`. -/
def copy (num : BigDecimal) : Except Failure BigDecimal := do
  let d ← assertThrow (str "num.ptr_data_") num.data
  let d ← checked (-2) false (mpd.copy defaultContext d)
  return ⟨some d⟩

/-- `BigDecimal::operator=(const BigDecimal& num)` of another object. The number is given up before
the other one is copied. -/
def assign (self num : BigDecimal) : Except Failure Unit × BigDecimal :=
  match num.data with
  | none => (.error (.thrown (-1) (str "num.ptr_data_")), self)
  | some d =>
      match checked (-2) false (mpd.copy defaultContext d) with
      | .ok d => (.ok (), ⟨some d⟩)
      | .error e => (.error e, ⟨none⟩)

/-- The operations without a `Precision`, on what the library makes of the numbers. -/
def operate (f : Context → Numeral → Numeral → Numeral × List Condition) (self num : BigDecimal) :
    Except Failure BigDecimal := do
  let _ ← default mpd
  let b ← assertThrow (str "num.ptr_data_") num.data
  let a ← assertThrow (str "ptr_data_") self.data
  let d ← checked (-1) false (f defaultContext a b)
  return ⟨some d⟩

/-- `BigDecimal::Add(num)`. -/
def add (self num : BigDecimal) : Except Failure BigDecimal := operate mpd mpd.add self num

/-- `BigDecimal::Sub(num)`. -/
def sub (self num : BigDecimal) : Except Failure BigDecimal := operate mpd mpd.sub self num

/-- `BigDecimal::Multiply(num)`. -/
def multiply (self num : BigDecimal) : Except Failure BigDecimal := operate mpd mpd.mul self num

/-- `BigDecimal::Div(num)`. -/
def div (self num : BigDecimal) : Except Failure BigDecimal := operate mpd mpd.div self num

/-- `BigDecimal::SetScale`. -/
def setScale (self : BigDecimal) (scale : Int) (roundType : RoundType) :
    Except Failure BigDecimal := do
  let _ ← default mpd
  let a ← assertThrow (str "ptr_data_") self.data
  let _ ← checkScale scale
  let exponent ← negateInt scale
  let scaleNum ← checked (-3) false
    (mpd.setString defaultContext (str "1e" ++ toText exponent))
  let mode ← setRound roundType
  let d ← checked (-5) true (mpd.quantize (defaultWith mode) a scaleNum)
  return ⟨some d⟩

/-- The operations with a `Precision`: in its context, and rescaled. -/
def operateTo (f : Context → Numeral → Numeral → Numeral × List Condition)
    (self num : BigDecimal) (prec : Precision) : Except Failure BigDecimal := do
  let _ ← default mpd
  let b ← assertThrow (str "num.ptr_data_") num.data
  let a ← assertThrow (str "ptr_data_") self.data
  let d ← checked (-1) true (f prec.ctx a b)
  setScale mpd ⟨some d⟩ prec.scale (RoundType.ofNumber (roundNumber prec.ctx.round))

/-- `BigDecimal::Add(num, prec)`. -/
def addTo (self num : BigDecimal) (prec : Precision) : Except Failure BigDecimal :=
  operateTo mpd mpd.add self num prec

/-- `BigDecimal::Sub(num, prec)`. -/
def subTo (self num : BigDecimal) (prec : Precision) : Except Failure BigDecimal :=
  operateTo mpd mpd.sub self num prec

/-- `BigDecimal::Multiply(num, prec)`. -/
def multiplyTo (self num : BigDecimal) (prec : Precision) : Except Failure BigDecimal :=
  operateTo mpd mpd.mul self num prec

/-- `BigDecimal::Div(num, prec)`. -/
def divTo (self num : BigDecimal) (prec : Precision) : Except Failure BigDecimal :=
  operateTo mpd mpd.div self num prec

/-- `BigDecimal::Neg`. -/
def neg (self : BigDecimal) : Except Failure BigDecimal := do
  let _ ← default mpd
  let zero ← default mpd
  let a ← assertThrow (str "ptr_data_") self.data
  let z ← dereference zero.data
  let d ← checked (-1) true (mpd.sub defaultContext z a)
  return ⟨some d⟩

/-- `BigDecimal::ToStr()`. -/
def toStr (self : BigDecimal) : Except Failure Str := do
  let d ← assertThrow (str "ptr_data_") self.data
  match mpd.toSci d with
  | some text => .ok text
  | none => .error (.thrown (-1) (str "Failed to convert decimal to string."))

/-- `BigDecimal::ToStr(scale, round_type)`. -/
def toStrScaled (self : BigDecimal) (scale : Int) (roundType : RoundType) : Except Failure Str :=
  (setScale mpd self scale roundType).bind (toStr mpd)

/-- `BigDecimal::IsValidDecimal`. -/
def isValidDecimal (expr : Str) : Bool :=
  checkContextStatus (mpd.setString defaultContext expr).2 false = [] ∧
    ¬ Special (mpd.setString defaultContext expr).1

/-- `BigDecimal::Compare`. -/
def compare (self num : BigDecimal) : Except Failure Int := do
  let b ← assertThrow (str "num.ptr_data_") num.data
  let a ← assertThrow (str "ptr_data_") self.data
  if mpd.cmp defaultContext a b = 2147483647 then
    .error (.thrown (-1)
      (str "Invalid operation! At least one of the operands is a signaling NaN."))
  else .ok (mpd.cmp defaultContext a b)

/-- `BigDecimal::operator==`. -/
def equal (self num : BigDecimal) : Except Failure Bool :=
  (compare mpd self num).map fun order => order = 0

/-- `BigDecimal::operator!=`. -/
def notEqual (self num : BigDecimal) : Except Failure Bool :=
  (compare mpd self num).map fun order => order ≠ 0

/-- `BigDecimal::operator>`. -/
def greater (self num : BigDecimal) : Except Failure Bool :=
  (compare mpd self num).map fun order => order = 1

/-- `BigDecimal::operator<`. -/
def less (self num : BigDecimal) : Except Failure Bool :=
  (compare mpd self num).map fun order => order = -1

/-- `Compare(num) == wanted || Compare(num) == 0`. -/
def compareTwice (self num : BigDecimal) (wanted : Int) : Except Failure Bool := do
  let first ← compare mpd self num
  if first = wanted then .ok true
  else (compare mpd self num).map fun order => order = 0

/-- `BigDecimal::operator>=`. -/
def greaterEqual (self num : BigDecimal) : Except Failure Bool := compareTwice mpd self num 1

/-- `BigDecimal::operator<=`. -/
def lessEqual (self num : BigDecimal) : Except Failure Bool := compareTwice mpd self num (-1)

end BigDecimal

/-! ## What a call that returns has -/

/-- The bind rule for calls that return. -/
theorem bind_eq_ok_iff {α β : Type} {x : Except Failure α} {f : α → Except Failure β} {b : β} :
    x >>= f = .ok b ↔ ∃ a, x = .ok a ∧ f a = .ok b := by
  cases x with
  | error e => exact ⟨(fun h => nomatch h), (fun ⟨_, h, _⟩ => nomatch h)⟩
  | ok a =>
      constructor
      · intro h
        exact ⟨a, rfl, h⟩
      · rintro ⟨a', ha, h⟩
        cases ha
        exact h

theorem assertThrow_eq_ok_iff {expression : Str} {data : Option Numeral} {d : Numeral} :
    assertThrow expression data = .ok d ↔ data = some d := by
  cases data with
  | none => exact ⟨(fun h => nomatch h), (fun h => nomatch h)⟩
  | some d' => rw [assertThrow, Except.ok.injEq, Option.some.injEq]

theorem checked_eq_ok_iff {α : Type} {code : Int} {ignoreRounding : Bool}
    {outcome : α × List Condition} {d : α} :
    checked code ignoreRounding outcome = .ok d ↔
      outcome.1 = d ∧ checkContextStatus outcome.2 ignoreRounding = [] := by
  simp only [checked]
  by_cases hstatus : checkContextStatus outcome.2 ignoreRounding = []
  · rw [if_pos hstatus, Except.ok.injEq]
    exact (and_iff_left hstatus).symm
  · rw [if_neg hstatus]
    exact ⟨(fun h => nomatch h), fun h => absurd h.2 hstatus⟩

/-- A number that passes the strict check comes without conditions. -/
theorem checked_strict_iff {α : Type} {code : Int} {outcome : α × List Condition} {d : α} :
    checked code false outcome = .ok d ↔ outcome.1 = d ∧ outcome.2 = [] := by
  rw [checked_eq_ok_iff, checkContextStatus_strict]

/-- A number that passes the check without rounding comes with no other conditions. -/
theorem checked_lenient_iff {code : Int} {outcome : Numeral × List Condition} {d : Numeral} :
    checked code true outcome = .ok d ↔ outcome.1 = d ∧ Context.Mild outcome.2 := by
  rw [checked_eq_ok_iff, checkContextStatus_lenient]

/-- A text that is too long is refused. -/
theorem BigDecimal.ofString_of_length {mpd : Mpd} {text : Str}
    (hlength : maxPrec + 10 < text.length) :
    BigDecimal.ofString mpd (some text) = .error (.thrown (-1)
      (str "Invalid parameter! str must not be empty, or its length exceeds the max.")) :=
  if_pos (.inr hlength)

/-- **What the constructor takes**: the valid decimals that are not empty and not too long. -/
theorem BigDecimal.ofString_returns_iff {mpd : Mpd} {text : Str} :
    (∃ x, BigDecimal.ofString mpd (some text) = .ok x) ↔
      text ≠ [] ∧ text.length ≤ maxPrec + 10 ∧ BigDecimal.isValidDecimal mpd text = true := by
  rw [← not_lt, ← and_assoc, ← not_or, BigDecimal.isValidDecimal, decide_eq_true_iff]
  by_cases htext : text = [] ∨ maxPrec + 10 < text.length
  · rw [BigDecimal.ofString, if_pos htext]
    exact ⟨(fun ⟨_, h⟩ => nomatch h), fun h => absurd htext h.1⟩
  · rw [BigDecimal.ofString, if_neg htext, and_iff_right htext]
    constructor
    · rintro ⟨x, h⟩
      obtain ⟨d, hd, hx⟩ := bind_eq_ok_iff.1 h
      obtain ⟨rfl, hstatus⟩ := checked_eq_ok_iff.1 hd
      refine ⟨hstatus, fun hspecial => ?_⟩
      rw [if_pos hspecial] at hx
      exact nomatch hx
    · rintro ⟨hstatus, hspecial⟩
      exact ⟨_, bind_eq_ok_iff.2 ⟨_, checked_eq_ok_iff.2 ⟨rfl, hstatus⟩, if_neg hspecial⟩⟩

theorem checkScale_eq_ok_iff {scale : Int} {u : Unit} :
    checkScale scale = .ok u ↔ scale < maxPrec := by
  rw [← not_le]
  simp only [checkScale]
  by_cases hscale : (maxPrec : Int) ≤ scale
  · rw [if_pos hscale]
    exact ⟨(fun h => nomatch h), fun h => absurd hscale h⟩
  · rw [if_neg hscale]
    exact iff_of_true rfl hscale

theorem setRound_eq_ok_iff {roundType : RoundType} {mode : Rounding} :
    setRound roundType = .ok mode ↔ mapRoundType roundType = some mode := by
  simp only [setRound]
  cases mapRoundType roundType with
  | none => exact ⟨(fun h => nomatch h), (fun h => nomatch h)⟩
  | some mode' => rw [Except.ok.injEq, Option.some.injEq]

theorem negateInt_eq_ok_iff {n m : Int} : negateInt n = .ok m ↔ -2147483648 < n ∧ m = -n := by
  rw [← not_le]
  simp only [negateInt]
  by_cases hleast : n ≤ -2147483648
  · rw [if_pos hleast]
    exact ⟨(fun h => nomatch h), fun h => absurd hleast h.1⟩
  · rw [if_neg hleast, Except.ok.injEq, and_iff_right hleast]
    exact eq_comm

/-- A `Precision` that is constructed has its scale below the maximum and its rounding mode. -/
theorem Precision.new_eq_ok_iff {roundType : RoundType} {scale : Int} {prec : Precision} :
    Precision.new roundType scale = .ok prec ↔
      scale < maxPrec ∧ ∃ mode, mapRoundType roundType = some mode ∧
        prec = ⟨{ (mpdInit maxPrec).1 with round := mode }, scale⟩ := by
  constructor
  · intro h
    obtain ⟨_, hscale, h⟩ := bind_eq_ok_iff.1 h
    obtain ⟨ctx, hctx, h⟩ := bind_eq_ok_iff.1 h
    obtain ⟨mode, hmode, h⟩ := bind_eq_ok_iff.1 h
    obtain ⟨rfl, -⟩ := checked_strict_iff.1 hctx
    cases h
    exact ⟨checkScale_eq_ok_iff.1 hscale, mode, setRound_eq_ok_iff.1 hmode, rfl⟩
  · rintro ⟨hscale, mode, hmode, rfl⟩
    refine bind_eq_ok_iff.2 ⟨(), checkScale_eq_ok_iff.2 hscale, ?_⟩
    refine bind_eq_ok_iff.2 ⟨_, checked_strict_iff.2 ⟨rfl, rfl⟩, ?_⟩
    exact bind_eq_ok_iff.2 ⟨mode, setRound_eq_ok_iff.2 hmode, rfl⟩

theorem Precision.supported {roundType : RoundType} {scale : Int} {prec : Precision}
    (h : Precision.new roundType scale = .ok prec) : Supported prec.ctx := by
  obtain ⟨-, mode, -, rfl⟩ := Precision.new_eq_ok_iff.1 h
  exact supported_init mode

end Ssgx.Decimal
