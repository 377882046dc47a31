import Ssgx.Decimal.BigDecimal

/-!
# Valid decimals

`IsValidDecimal` beside the constructor. Both give the text to the library in the default context
and refuse it where a condition is raised or the number is a special one, so both take the texts of
the numbers that the default context holds (`isValidDecimal_iff`). The constructor alone looks at
the length: a valid text of more than 109 characters, such as one with many leading zeros, makes it
throw (`validity_agrees_iff`).
-/

set_option autoImplicit false

namespace Ssgx.Decimal

open Ssgx.Support

/-- The text of a number that the default context holds as it is. -/
def NumberText (text : Str) : Prop :=
  ∃ n, Numeral.parse maxPrec text = some (.finite n) ∧ defaultContext.Holds n

/-- `IsValidDecimal` is true exactly where the constructor gives an object. -/
def ValidityAgrees (mpd : Mpd) (text : Str) : Prop :=
  BigDecimal.isValidDecimal mpd text = true ↔ ∃ x, BigDecimal.ofString mpd (some text) = .ok x

variable {mpd : Mpd} (hmpd : mpd.Conforms)
include hmpd

/-- **The valid decimals** are the texts of numbers that the default context holds. -/
theorem isValidDecimal_iff (text : Str) :
    BigDecimal.isValidDecimal mpd text = true ↔ NumberText text := by
  rw [BigDecimal.isValidDecimal, decide_eq_true_iff, checkContextStatus_strict,
    hmpd.setString _ supported_defaultContext, NumberText, Context.ofText]
  have hprec : defaultContext.prec = maxPrec := rfl
  rw [hprec]
  cases Numeral.parse maxPrec text with
  | none =>
      constructor
      · rintro ⟨h, -⟩
        cases h
      · rintro ⟨n, h, -⟩
        cases h
  | some numeral =>
      cases numeral with
      | finite n =>
          simp only [Context.conditions_result_self_iff (show 0 < defaultContext.prec by decide)]
          constructor
          · exact fun h => ⟨n, rfl, h.1⟩
          · rintro ⟨m, hm, hholds⟩
            cases hm
            rw [Context.result_self hholds]
            exact ⟨hholds, id⟩
      | infinite negative =>
          refine ⟨fun h => absurd trivial h.2, ?_⟩
          rintro ⟨n, h, -⟩
          cases h
      | nan =>
          refine ⟨fun h => absurd trivial h.2, ?_⟩
          rintro ⟨n, h, -⟩
          cases h

/-- The empty text is no valid decimal. -/
theorem ne_nil_of_isValidDecimal {text : Str} (h : BigDecimal.isValidDecimal mpd text = true) :
    text ≠ [] := by
  rintro rfl
  obtain ⟨n, hparse, -⟩ := (isValidDecimal_iff hmpd []).1 h
  exact nomatch hparse

/-- **When the two agree on a text**: it has at most 109 characters, or it is not the text of a
number that the default context holds. -/
theorem validity_agrees_iff (text : Str) :
    ValidityAgrees mpd text ↔ text.length ≤ maxPrec + 10 ∨ ¬ NumberText text := by
  rw [ValidityAgrees, BigDecimal.ofString_returns_iff, ← isValidDecimal_iff hmpd, ← imp_iff_or_not]
  constructor
  · exact fun hagree hvalid => (hagree.1 hvalid).2.1
  · intro hshort
    refine ⟨fun hvalid => ?_, fun h => h.2.2⟩
    exact ⟨ne_nil_of_isValidDecimal hmpd hvalid, hshort hvalid, hvalid⟩

omit hmpd in
/-- A text of the tests of the library. -/
theorem validity_agrees_iff_sample :
    ValidityAgrees Mpd.reference (str "2E-55") ↔
      (str "2E-55").length ≤ maxPrec + 10 ∨ ¬ NumberText (str "2E-55") :=
  validity_agrees_iff Mpd.reference_conforms (str "2E-55")

omit hmpd in
/-- A one with 109 zeros in front of it is valid, and the constructor throws. -/
theorem not_validity_agrees : ¬ ValidityAgrees Mpd.reference (padded 110 1) := by
  have hlength : (padded 110 1).length = 110 := length_padded (by decide) (by decide)
  have hparse : Numeral.parse maxPrec (padded 110 1) = some (.finite ⟨false, 1, 0⟩) := by
    have hmantissa := Numeral.mantissa_digits (allDigits_padded 110 1)
      (List.ne_nil_of_length_pos (by omega))
    rw [ofDecimal_padded] at hmantissa
    exact Numeral.parse_mantissa maxPrec false hmantissa
  have hholds : defaultContext.Holds ⟨false, 1, 0⟩ :=
    Context.holds_powerOfTen (by decide) rfl (by decide) (by decide)
  have hvalid := (isValidDecimal_iff Mpd.reference_conforms _).2 ⟨_, hparse, hholds⟩
  intro hagree
  obtain ⟨x, hx⟩ := hagree.1 hvalid
  rw [BigDecimal.ofString_of_length (hlength ▸ by decide)] at hx
  exact nomatch hx

end Ssgx.Decimal
