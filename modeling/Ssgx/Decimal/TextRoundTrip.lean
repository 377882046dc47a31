import Ssgx.Decimal.Reachable

/-!
# Numbers as texts

`ToStr` of a reachable object, given to the constructor. The text is read as the number
(`Context.ofText_toSci`), but the constructor refuses a text of more than 109 characters. The text
of a number without an exponent has at most 8 characters more than the number has digits; one with
an exponent may have up to 14 more, for the sign, the point and the exponent
(`comes_back_iff`).
-/

set_option autoImplicit false

namespace Ssgx.Decimal

open Ssgx.Support

theorem toSci_ne_nil (n : Number) : n.toSci ≠ [] := by
  intro hnil
  have hnone : Numeral.parse 0 [] = none := rfl
  have hparse := Numeral.parse_toSci 0 n
  rw [hnil, hnone] at hparse
  exact nomatch hparse

theorem compare_self (n : Number) : n.compare n = 0 := by
  rw [Number.compare, if_neg (lt_irrefl _), if_pos rfl]

/-- The text is short enough exactly where it has no exponent or is counted short enough. -/
theorem length_toSci_le_iff {n : Number} (hdigits : n.digits ≤ maxPrec) :
    n.toSci.length ≤ maxPrec + 10 ↔ n.Plain ∨ n.sciLength ≤ maxPrec + 10 := by
  by_cases hplain : n.Plain
  · have hlength := Number.length_toSci_of_plain hplain
    exact iff_of_true (by omega) (.inl hplain)
  · rw [Number.length_toSci hplain]
    exact (or_iff_right hplain).symm

namespace BigDecimal

variable {mpd : Mpd} (hmpd : mpd.Conforms)
include hmpd

theorem toStr_of_has {x : BigDecimal} {n : Number} (hx : x.Has n) :
    x.toStr mpd = .ok n.toSci := by
  refine bind_eq_ok_iff.2 ⟨_, assertThrow_eq_ok_iff.2 hx.data, ?_⟩
  simp only [hmpd.toSci]

/-- A text of a number that is short enough gives the number. -/
theorem ofString_toSci {n : Number} (hn : defaultContext.Holds n)
    (hlength : n.toSci.length ≤ maxPrec + 10) :
    ofString mpd (some n.toSci) = .ok ⟨some (.finite n)⟩ :=
  ofString_of_result hmpd (toSci_ne_nil n) hlength (Context.ofText_toSci hn)

/-- **The text at a scale** is that of the number rounded once to the scale, where the default
context holds it. -/
theorem toStrScaled_eq_ok_iff {x : BigDecimal} {a : Number} (hx : x.Has a) {scale : Int}
    {roundType : RoundType} {text : Str} :
    x.toStrScaled mpd scale roundType = .ok text ↔
      -2147483648 < scale ∧ scale < maxPrec ∧ ∃ mode, mapRoundType roundType = some mode ∧
        defaultContext.Holds ((defaultWith mode).atExponent a (-scale)) ∧
        text = ((defaultWith mode).atExponent a (-scale)).toSci := by
  constructor
  · intro h
    obtain ⟨y, hy, htext⟩ := bind_eq_ok_iff.1 h
    obtain ⟨hlow, hhigh, mode, hmode, hhas⟩ := (setScale_eq_ok_iff hmpd hx.data).1 hy
    rw [toStr_of_has hmpd hhas, Except.ok.injEq] at htext
    exact ⟨hlow, hhigh, mode, hmode, hhas.holds, htext.symm⟩
  · rintro ⟨hlow, hhigh, mode, hmode, hholds, rfl⟩
    have hhas : BigDecimal.Has ⟨some (.finite ((defaultWith mode).atExponent a (-scale)))⟩
        ((defaultWith mode).atExponent a (-scale)) := ⟨rfl, hholds⟩
    exact bind_eq_ok_iff.2 ⟨_, (setScale_eq_ok_iff hmpd hx.data).2 ⟨hlow, hhigh, mode, hmode, hhas⟩,
      toStr_of_has hmpd hhas⟩

theorem equal_of_data {x y : BigDecimal} {n : Number} (hx : x.data = some (.finite n))
    (hy : y.data = some (.finite n)) : y.equal mpd x = .ok true := by
  have hcompare : y.compare mpd x = .ok 0 := by
    refine bind_eq_ok_iff.2 ⟨_, assertThrow_eq_ok_iff.2 hx, ?_⟩
    refine bind_eq_ok_iff.2 ⟨_, assertThrow_eq_ok_iff.2 hy, ?_⟩
    rw [hmpd.cmp _ supported_defaultContext, compare_self]
    rfl
  rw [equal, hcompare]
  rfl

end BigDecimal

/-- The object's text gives a number that compares equal to it. -/
def ComesBack (mpd : Mpd) (x : BigDecimal) : Prop :=
  ∃ text y, x.toStr mpd = .ok text ∧ BigDecimal.ofString mpd (some text) = .ok y ∧
    y.equal mpd x = .ok true

/-- **When a reachable object comes back from its text.** It has a number, and the text has no
exponent or not too many characters. -/
theorem comes_back_iff {mpd : Mpd} (hmpd : mpd.Conforms) (ops : List Operation) {x : BigDecimal}
    (hx : x ∈ run mpd ops) :
    ComesBack mpd x ↔
      ∃ n, x.data = some (.finite n) ∧ (n.Plain ∨ n.sciLength ≤ maxPrec + 10) := by
  constructor
  · rintro ⟨text, y, htext, hy, -⟩
    obtain ⟨d, hd, -⟩ := bind_eq_ok_iff.1 htext
    obtain ⟨n, hn, -⟩ := (valid_run hmpd ops hx).has (assertThrow_eq_ok_iff.1 hd)
    rw [BigDecimal.toStr_of_has hmpd hn, Except.ok.injEq] at htext
    refine ⟨n, hn.data, (length_toSci_le_iff hn.holds.digits).1 ?_⟩
    by_contra hlong
    rw [← htext, BigDecimal.ofString_of_length (not_le.1 hlong)] at hy
    exact nomatch hy
  · rintro ⟨n, hdata, hshort⟩
    obtain ⟨m, hm, hsame⟩ := (valid_run hmpd ops hx).has hdata
    cases hsame
    have hlength := (length_toSci_le_iff hm.holds.digits).2 hshort
    exact ⟨_, _, BigDecimal.toStr_of_has hmpd hm, BigDecimal.ofString_toSci hmpd hm.holds hlength,
      BigDecimal.equal_of_data hmpd hdata rfl⟩

/-- `6.78E+9` comes back from its text: it has three digits and an exponent, and the text seven
characters. -/
theorem comes_back_iff_credit : ComesBack Mpd.reference ⟨some (.finite credit)⟩ :=
  (comes_back_iff Mpd.reference_conforms
    [.construct (some (str "-12.345")), .construct (some (str "6.78E+9"))]
    (run_debit_credit ▸ List.mem_cons_of_mem _ List.mem_cons_self)).2
    ⟨credit, rfl, Or.inr (by decide)⟩

/-- A number of 99 nines. -/
def manyNines : Number := ⟨false, 10 ^ 99 - 1, 9999999⟩

/-- Its digits and its exponent. -/
def manyNinesText : Str := decimal (10 ^ 99 - 1) ++ str "E9999999"

theorem digits_manyNines : manyNines.digits = 99 := by
  have hlow : 98 < manyNines.digits :=
    (lt_length_decimal_iff (by decide)).2 (by decide : 10 ^ 98 ≤ 10 ^ 99 - 1)
  have hhigh : manyNines.digits ≤ 99 :=
    (length_decimal_le_iff (by decide)).2 (by decide : 10 ^ 99 - 1 < 10 ^ 99)
  omega

theorem adjusted_manyNines : manyNines.adjusted = 10000097 := by
  rw [Number.adjusted, digits_manyNines]
  rfl

theorem has_manyNines : BigDecimal.Has ⟨some (.finite manyNines)⟩ manyNines := by
  refine ⟨rfl, digits_manyNines.le, fun hzero => absurd hzero (by decide), fun _ => ?_⟩
  rw [adjusted_manyNines]
  decide

theorem ofString_manyNines :
    BigDecimal.ofString Mpd.reference (some manyNinesText) =
      .ok ⟨some (.finite manyNines)⟩ := by
  have hlength : manyNinesText.length = 107 := by
    rw [manyNinesText, List.length_append]
    exact congrArg (· + 8) digits_manyNines
  have hmantissa := Numeral.mantissa_digits (allDigits_decimal (10 ^ 99 - 1)) (decimal_ne_nil _)
  have hletter : Char.toLower 'E' = 'e' := rfl
  have hlower : lower (str "9999999") = str "9999999" := by decide
  have hexponent : Numeral.parseExponent (str "9999999") = some 9999999 := by decide
  have hparse : Numeral.parse defaultContext.prec manyNinesText = some (.finite manyNines) := by
    rw [ofDecimal_decimal] at hmantissa
    exact Numeral.parse_scientific _ false hmantissa hletter hlower hexponent
  refine BigDecimal.ofString_of_result Mpd.reference_conforms
    (List.ne_nil_of_length_pos (by omega)) (hlength.trans_le (by decide)) ?_
  rw [Context.ofText, hparse]
  exact Context.result_self has_manyNines.holds

/-- **A number whose text is refused.** It is constructed from 107 characters, and `ToStr` gives
110. -/
theorem many_nines_do_not_come_back :
    ∃ ops x text, x ∈ run Mpd.reference ops ∧ x.toStr Mpd.reference = .ok text ∧
      Throws (BigDecimal.ofString Mpd.reference (some text)) := by
  have hplain : ¬ manyNines.Plain := fun h => absurd h.1 (by decide)
  have hlength : manyNines.toSci.length = 110 := by
    rw [Number.length_toSci hplain, Number.sciLength, digits_manyNines, adjusted_manyNines]
    decide
  refine ⟨[.construct (some manyNinesText)], ⟨some (.finite manyNines)⟩, manyNines.toSci, ?_,
    BigDecimal.toStr_of_has Mpd.reference_conforms has_manyNines,
    _, _, BigDecimal.ofString_of_length (hlength ▸ by decide)⟩
  rw [run_construct, ofString_manyNines]
  exact List.mem_singleton_self _

end Ssgx.Decimal
