import Ssgx.Support.DecimalArithmetic

/-!
# The text of a decimal number

Scientific strings and their conversion back, as the General Decimal Arithmetic specification has
them. `toSci` writes the digits of the coefficient, with a point among them where the exponent asks
for no more than a few zeros, and otherwise behind the first digit with an exponent. `parse` reads
any numeric string. `parse_toSci` says that a number comes back, and `length_toSci` how long its
text is.
-/

set_option autoImplicit false

namespace Ssgx.Support

namespace Number

/-- The sign of a text. -/
def signText (negative : Bool) : Str := if negative then ['-'] else []

/-- The number is written without an exponent. -/
def Plain (n : Number) : Prop := n.exponent ≤ 0 ∧ -6 ≤ n.adjusted

instance (n : Number) : Decidable n.Plain := inferInstanceAs (Decidable (_ ∧ _))

/-- The digits with a point in front of the last `places` ones. -/
def pointText (coefficient places : Nat) : Str :=
  let ds := padded (places + 1) coefficient
  if places = 0 then ds else ds.take (ds.length - places) ++ '.' :: ds.drop (ds.length - places)

/-- The digits with a point behind the first one. -/
def mantissaText (coefficient : Nat) : Str :=
  match decimal coefficient with
  | [] => []
  | [d] => [d]
  | d :: rest => d :: '.' :: rest

/-- An exponent with its sign. -/
def exponentText (e : Int) : Str := (if e < 0 then '-' else '+') :: decimal e.natAbs

/-- **The scientific string**, in upper case. -/
def toSci (n : Number) : Str :=
  signText n.negative ++
    if n.Plain then pointText n.coefficient (-n.exponent).toNat
    else mantissaText n.coefficient ++ 'E' :: exponentText n.adjusted

end Number

namespace Numeral

/-- The scientific string of a decimal number. -/
def toSci : Numeral → Str
  | .finite n => n.toSci
  | .infinite negative => Number.signText negative ++ str "Infinity"
  | .nan => str "NaN"

/-- A text behind its sign. -/
def takeSign : Str → Bool × Str
  | '-' :: rest => (true, rest)
  | '+' :: rest => (false, rest)
  | text => (false, text)

/-- The digits of a number with at most one point among them. -/
def parseMantissa (text : Str) : Option (Nat × Nat) :=
  let whole := upTo '.' text
  let fraction := behind '.' text
  if AllDigits (whole ++ fraction) ∧ whole ++ fraction ≠ [] then
    some (ofDecimal (whole ++ fraction), fraction.length)
  else none

/-- An exponent with or without a sign. -/
def parseExponent (text : Str) : Option Int :=
  let (negative, digits) := takeSign text
  if AllDigits digits ∧ digits ≠ [] then some (signed negative (ofDecimal digits : Int)) else none

/-- A number behind its sign. -/
def parseNumber (negative : Bool) (text : Str) : Option Number :=
  (parseMantissa (upTo 'e' text)).bind fun mantissa =>
    (if 'e' ∈ text then parseExponent (behind 'e' text) else some 0).map fun exponent =>
      ⟨negative, mantissa.1, exponent - mantissa.2⟩

/-- The diagnostic digits of a NaN: no more than `prec` of them behind their zeros. -/
def Diagnostic (prec : Nat) (digits : Str) : Prop :=
  AllDigits digits ∧ (digits.dropWhile fun ch => ch = '0').length ≤ prec

instance (prec : Nat) (digits : Str) : Decidable (Diagnostic prec digits) :=
  inferInstanceAs (Decidable (_ ∧ _))

/-- **The numeric string of a decimal number**, in upper or lower case. -/
def parse (prec : Nat) (text : Str) : Option Numeral :=
  let (negative, body) := takeSign text
  let body := lower body
  if body = str "inf" ∨ body = str "infinity" then some (.infinite negative)
  else if (body.take 3 = str "nan" ∧ Diagnostic prec (body.drop 3)) ∨
      (body.take 4 = str "snan" ∧ Diagnostic prec (body.drop 4)) then some .nan
  else (parseNumber negative body).map .finite

end Numeral

/-- The conversion of a text. The number is rounded to the context. -/
def Context.ofText (ctx : Context) (text : Str) : Numeral × List Condition :=
  match Numeral.parse ctx.prec text with
  | some (.finite n) => ctx.result n.value n.exponent n.negative
  | some other => (other, [])
  | none => (.nan, [.conversionSyntax])

/-! ## Mantissas -/

namespace Numeral

/-- A text of digits with at most one point, and a digit first, that is read as a coefficient and a
number of places. -/
structure Mantissa (text : Str) (coefficient places : Nat) : Prop where
  characters : ∀ ch ∈ text, ch.isDigit = true ∨ ch = '.'
  first : ∃ d rest, text = d :: rest ∧ d.isDigit = true
  read : parseMantissa text = some (coefficient, places)

theorem not_mem_of_allDigits {s : Str} (h : AllDigits s) {ch : Char} (hch : ch.isDigit = false) :
    ch ∉ s := by
  intro hmem
  rw [h ch hmem] at hch
  cases hch

theorem first_of_allDigits {s : Str} (h : AllDigits s) (hne : s ≠ []) :
    ∃ d rest, s = d :: rest ∧ d.isDigit = true := by
  obtain ⟨d, rest, rfl⟩ := List.exists_cons_of_ne_nil hne
  exact ⟨d, rest, rfl, h d List.mem_cons_self⟩

/-- Digits alone. -/
theorem mantissa_digits {s : Str} (h : AllDigits s) (hne : s ≠ []) :
    Mantissa s (ofDecimal s) 0 := by
  have hpoint : '.' ∉ s := not_mem_of_allDigits h rfl
  refine ⟨fun ch hch => .inl (h ch hch), first_of_allDigits h hne, ?_⟩
  simp only [parseMantissa, upTo_of_not_mem hpoint, behind_of_not_mem hpoint, List.append_nil]
  rw [if_pos ⟨h, hne⟩]
  rfl

/-- Digits on both sides of a point. -/
theorem mantissa_point {front back : Str} (hfront : AllDigits front) (hne : front ≠ [])
    (hback : AllDigits back) :
    Mantissa (front ++ '.' :: back) (ofDecimal (front ++ back)) back.length := by
  have hpoint : '.' ∉ front := not_mem_of_allDigits hfront rfl
  obtain ⟨d, rest, hfirst, hd⟩ := first_of_allDigits hfront hne
  refine ⟨?_, ⟨d, rest ++ '.' :: back, by rw [hfirst]; rfl, hd⟩, ?_⟩
  · intro ch hch
    rcases List.mem_append.1 hch with hch | hch
    · exact .inl (hfront ch hch)
    · rcases List.mem_cons.1 hch with rfl | hch
      · exact .inr rfl
      · exact .inl (hback ch hch)
  · simp only [parseMantissa, upTo_split hpoint, behind_append hpoint, behind_cons_self]
    exact if_pos ⟨allDigits_append.2 ⟨hfront, hback⟩, List.append_ne_nil_of_left_ne_nil hne back⟩

theorem mantissa_pointText (c places : Nat) : Mantissa (Number.pointText c places) c places := by
  have hdigits := allDigits_padded (places + 1) c
  have hlength : places + 1 ≤ (padded (places + 1) c).length := le_length_padded _ _
  simp only [Number.pointText]
  by_cases hzero : places = 0
  · subst hzero
    have hmantissa := mantissa_digits hdigits (List.ne_nil_of_length_pos (by omega))
    rw [ofDecimal_padded] at hmantissa
    exact hmantissa
  · simp only [if_neg hzero]
    generalize hsplit : (padded (places + 1) c).length - places = i
    have hfront : AllDigits ((padded (places + 1) c).take i) := fun ch hch =>
      hdigits ch (List.mem_of_mem_take hch)
    have hback : AllDigits ((padded (places + 1) c).drop i) := fun ch hch =>
      hdigits ch (List.mem_of_mem_drop hch)
    have hne : (padded (places + 1) c).take i ≠ [] :=
      List.ne_nil_of_length_pos (by rw [List.length_take]; omega)
    have hmantissa := mantissa_point hfront hne hback
    rw [List.take_append_drop, ofDecimal_padded, List.length_drop] at hmantissa
    have hplaces : (padded (places + 1) c).length - i = places := by omega
    rw [hplaces] at hmantissa
    exact hmantissa

theorem mantissa_mantissaText (c : Nat) :
    Mantissa (Number.mantissaText c) c ((decimal c).length - 1) := by
  have hdigits := allDigits_decimal c
  have hvalue := ofDecimal_decimal c
  simp only [Number.mantissaText]
  match hdecimal : decimal c with
  | [] => exact absurd hdecimal (decimal_ne_nil c)
  | [d] =>
      rw [hdecimal] at hdigits hvalue
      have hmantissa := mantissa_digits hdigits (List.cons_ne_nil d [])
      rw [hvalue] at hmantissa
      exact hmantissa
  | d :: e :: rest =>
      rw [hdecimal] at hdigits hvalue
      have hfront : AllDigits [d] := by
        intro ch hch
        rw [List.mem_singleton.1 hch]
        exact hdigits d List.mem_cons_self
      have hback : AllDigits (e :: rest) := fun ch hch => hdigits ch (List.mem_cons_of_mem d hch)
      have hmantissa := mantissa_point hfront (List.cons_ne_nil d []) hback
      have hread : ofDecimal ([d] ++ e :: rest) = c := hvalue
      rw [hread] at hmantissa
      exact hmantissa

/-! ## Exponents -/

theorem takeSign_of_digit {d : Char} (hd : d.isDigit = true) (rest : Str) :
    takeSign (d :: rest) = (false, d :: rest) := by
  simp only [takeSign]
  split
  · next heq =>
      injection heq with hchar
      rw [hchar] at hd
      cases hd
  · next heq =>
      injection heq with hchar
      rw [hchar] at hd
      cases hd
  · rfl

theorem takeSign_signText (negative : Bool) {d : Char} (hd : d.isDigit = true) (rest : Str) :
    takeSign (Number.signText negative ++ d :: rest) = (negative, d :: rest) := by
  cases negative with
  | true => rfl
  | false => exact takeSign_of_digit hd rest

theorem takeSign_decimal (n : Nat) : takeSign (decimal n) = (false, decimal n) := by
  obtain ⟨d, rest, hfirst, hd⟩ := first_of_allDigits (allDigits_decimal n) (decimal_ne_nil n)
  rw [hfirst]
  exact takeSign_of_digit hd rest

/-- An exponent with its sign in front of its digits. -/
theorem parseExponent_of_takeSign {text : Str} {negative : Bool} {n : Nat}
    (h : takeSign text = (negative, decimal n)) :
    parseExponent text = some (signed negative (n : Int)) := by
  simp only [parseExponent]
  rw [h]
  simp only [allDigits_decimal, decimal_ne_nil, ofDecimal_decimal, ne_eq, not_false_eq_true,
    and_self, if_true]

theorem parseExponent_exponentText (e : Int) : parseExponent (Number.exponentText e) = some e := by
  simp only [Number.exponentText]
  by_cases he : e < 0
  · have hsigned : signed true (e.natAbs : Int) = e := by
      show -(e.natAbs : Int) = e
      omega
    have htake : takeSign ('-' :: decimal e.natAbs) = (true, decimal e.natAbs) := rfl
    rw [if_pos he, parseExponent_of_takeSign htake, hsigned]
  · have hsigned : signed false (e.natAbs : Int) = e := by
      show (e.natAbs : Int) = e
      omega
    have htake : takeSign ('+' :: decimal e.natAbs) = (false, decimal e.natAbs) := rfl
    rw [if_neg he, parseExponent_of_takeSign htake, hsigned]

theorem parseExponent_toText (e : Int) : parseExponent (toText e) = some e := by
  cases e with
  | ofNat n => exact parseExponent_of_takeSign (takeSign_decimal n)
  | negSucc n =>
      have htake : takeSign ('-' :: decimal (n + 1)) = (true, decimal (n + 1)) := rfl
      exact parseExponent_of_takeSign htake

/-! ## Numbers -/

theorem toLower_of_isDigit {ch : Char} (h : ch.isDigit = true) : ch.toLower = ch := by
  have hdigit := (isDigit_iff ch).1 h
  apply dif_neg
  intro hupper
  have hlow : 65 ≤ ch.toNat := UInt32.le_iff_toNat_le.1 hupper.1
  omega

/-- The letters of a mantissa are in lower case. -/
theorem Mantissa.lower {text : Str} {c places : Nat} (h : Mantissa text c places) :
    lower text = text := by
  have hall : ∀ ch ∈ text, ch.toLower = ch := by
    intro ch hch
    rcases h.characters ch hch with hdigit | rfl
    · exact toLower_of_isDigit hdigit
    · rfl
  exact (List.map_congr_left hall).trans (List.map_id text)

theorem Mantissa.not_mem {text : Str} {c places : Nat} (h : Mantissa text c places) {ch : Char}
    (hdigit : ch.isDigit = false) (hpoint : ch ≠ '.') : ch ∉ text := by
  intro hmem
  rcases h.characters ch hmem with hch | hch
  · rw [hch] at hdigit
    cases hdigit
  · exact hpoint hch

/-- A text that begins with a digit is read as a number. -/
theorem parse_of_digit (prec : Nat) {negative : Bool} {d : Char} (hd : d.isDigit = true)
    (rest : Str) :
    parse prec (Number.signText negative ++ d :: rest) =
      (parseNumber negative (lower (d :: rest))).map .finite := by
  have hlower : lower (d :: rest) = d :: lower rest := by
    rw [lower, List.map_cons, toLower_of_isDigit hd]
    rfl
  -- no name of an infinity or of a NaN begins with a digit
  have hname : ∀ {c : Char} {name : Str} {i : Nat}, c.isDigit = false →
      (d :: lower rest).take i ≠ c :: name ∧ d :: lower rest ≠ c :: name := by
    intro c name i hc
    have hne : d ≠ c := by
      rintro rfl
      rw [hd] at hc
      cases hc
    refine ⟨?_, fun h => hne (List.cons.inj h).1⟩
    cases i with
    | zero => exact fun h => nomatch h
    | succ i => exact fun h => hne (List.cons.inj h).1
  simp only [parse]
  rw [takeSign_signText negative hd rest]
  simp only [hlower]
  rw [if_neg, if_neg]
  · rintro (⟨h, -⟩ | ⟨h, -⟩)
    · exact (hname rfl).1 h
    · exact (hname rfl).1 h
  · rintro (h | h)
    · exact (hname (i := 0) rfl).2 h
    · exact (hname (i := 0) rfl).2 h

/-- **A number without an exponent.** -/
theorem parse_mantissa (prec : Nat) (negative : Bool) {text : Str} {c places : Nat}
    (h : Mantissa text c places) :
    parse prec (Number.signText negative ++ text) = some (.finite ⟨negative, c, -places⟩) := by
  obtain ⟨d, rest, hfirst, hd⟩ := h.first
  have hnone : 'e' ∉ text := h.not_mem rfl (by decide)
  rw [hfirst, parse_of_digit prec hd, ← hfirst, h.lower, parseNumber, upTo_of_not_mem hnone, h.read,
    Option.bind_some, if_neg hnone, Option.map_some, zero_sub, Option.map_some]

/-- **A number with an exponent.** -/
theorem parse_scientific (prec : Nat) (negative : Bool) {text : Str} {c places : Nat}
    (h : Mantissa text c places) {letter : Char} (hletter : letter.toLower = 'e') {exponent : Str}
    {e : Int} (hlower : lower exponent = exponent) (hexponent : parseExponent exponent = some e) :
    parse prec (Number.signText negative ++ (text ++ letter :: exponent)) =
      some (.finite ⟨negative, c, e - places⟩) := by
  obtain ⟨d, rest, hfirst, hd⟩ := h.first
  have hnone : 'e' ∉ text := h.not_mem rfl (by decide)
  have hbody : text ++ letter :: exponent = d :: (rest ++ letter :: exponent) := by
    rw [hfirst]
    rfl
  have hsplit : lower (text ++ letter :: exponent) = text ++ 'e' :: exponent := by
    rw [lower_append, h.lower, lower, List.map_cons, hletter]
    exact congrArg (fun tail => text ++ 'e' :: tail) hlower
  rw [hbody, parse_of_digit prec hd, ← hbody, hsplit, parseNumber, upTo_split hnone, h.read,
    Option.bind_some, if_pos (List.mem_append_right _ List.mem_cons_self), behind_append hnone,
    behind_cons_self, hexponent]
  rfl

theorem lower_of_allDigits {s : Str} (h : AllDigits s) : lower s = s :=
  (List.map_congr_left fun ch hch => toLower_of_isDigit (h ch hch)).trans (List.map_id s)

theorem lower_exponentText (e : Int) : lower (Number.exponentText e) = Number.exponentText e := by
  simp only [Number.exponentText]
  rw [lower, List.map_cons]
  congr 1
  · split_ifs
    · rfl
    · rfl
  · exact lower_of_allDigits (allDigits_decimal _)

theorem lower_toText (e : Int) : lower (toText e) = toText e := by
  cases e with
  | ofNat n => exact lower_of_allDigits (allDigits_decimal n)
  | negSucc n => exact congrArg ('-' :: ·) (lower_of_allDigits (allDigits_decimal (n + 1)))

/-- **The text of a number is read as the number.** -/
theorem parse_toSci (prec : Nat) (n : Number) : parse prec n.toSci = some (.finite n) := by
  simp only [Number.toSci]
  by_cases hplain : n.Plain
  · have hexponent : -(((-n.exponent).toNat : Nat) : Int) = n.exponent := by
      have := hplain.1
      omega
    rw [if_pos hplain, parse_mantissa prec _ (mantissa_pointText _ _), hexponent]
  · have hdigits : 0 < n.digits := List.length_pos_of_ne_nil (decimal_ne_nil _)
    have hexponent : n.adjusted - (((decimal n.coefficient).length - 1 : Nat) : Int) =
        n.exponent := by
      simp only [Number.adjusted]
      simp only [Number.digits] at *
      omega
    rw [if_neg hplain, parse_scientific prec _ (mantissa_mantissaText _) rfl (lower_exponentText _)
      (parseExponent_exponentText _), hexponent]

end Numeral

/-- **A number of a context** is restored from its text. -/
theorem Context.ofText_toSci {ctx : Context} {n : Number} (h : ctx.Holds n) :
    ctx.ofText n.toSci = (.finite n, []) := by
  simp only [Context.ofText]
  rw [Numeral.parse_toSci]
  exact Context.result_self h

/-- The text of a power of ten. -/
theorem Context.ofText_powerOfTen {ctx : Context} (hprec : 0 < ctx.prec) {e : Int}
    (hlow : ctx.emin ≤ e) (hhigh : e ≤ ctx.emax) :
    ctx.ofText (str "1e" ++ toText e) = (.finite ⟨false, 1, e⟩, []) := by
  have hmantissa : Numeral.Mantissa (str "1") 1 0 :=
    Numeral.mantissa_digits (by decide) (by decide)
  have hparse : Numeral.parse ctx.prec (str "1e" ++ toText e) = some (.finite ⟨false, 1, e⟩) := by
    have hletter : Char.toLower 'e' = 'e' := rfl
    have hscientific := Numeral.parse_scientific ctx.prec false hmantissa hletter
      (Numeral.lower_toText e) (Numeral.parseExponent_toText e)
    rw [Nat.cast_zero, sub_zero] at hscientific
    exact hscientific
  have hholds : ctx.Holds ⟨false, 1, e⟩ := holds_powerOfTen hprec rfl hlow hhigh
  simp only [ofText]
  rw [hparse]
  exact result_self hholds

/-! ## The length of a text -/

namespace Number

/-- The length of the text of a number with an exponent. -/
def sciLength (n : Number) : Nat :=
  (if n.negative then 1 else 0) + n.digits + (if 1 < n.digits then 1 else 0) + 2 +
    (decimal n.adjusted.natAbs).length

theorem length_signText (negative : Bool) :
    (signText negative).length = if negative then 1 else 0 := by
  cases negative with
  | true => rfl
  | false => rfl

theorem length_padded_eq (width n : Nat) :
    (padded width n).length = max width (decimal n).length := by
  rw [padded, List.length_append, List.length_replicate]
  omega

theorem length_pointText (c places : Nat) :
    (pointText c places).length =
      max (places + 1) (decimal c).length + if places = 0 then 0 else 1 := by
  rw [← length_padded_eq]
  simp only [pointText]
  by_cases hzero : places = 0
  · rw [if_pos hzero]
    simp only [if_pos hzero, Nat.add_zero]
  · rw [if_neg hzero]
    simp only [if_neg hzero, List.length_append, List.length_cons, List.length_take,
      List.length_drop]
    omega

theorem length_mantissaText (c : Nat) :
    (mantissaText c).length =
      (decimal c).length + if 1 < (decimal c).length then 1 else 0 := by
  simp only [mantissaText]
  match hdecimal : decimal c with
  | [] => rfl
  | [d] => rfl
  | d :: e :: rest =>
      rw [if_pos (by simp)]
      rfl

/-- The length of a text with an exponent. -/
theorem length_toSci {n : Number} (h : ¬ n.Plain) : n.toSci.length = n.sciLength := by
  unfold toSci sciLength digits exponentText
  rw [if_neg h, List.length_append, List.length_append, List.length_cons, List.length_cons,
    length_signText, length_mantissaText]
  omega

/-- The length of a text without one. -/
theorem length_toSci_of_plain {n : Number} (h : n.Plain) : n.toSci.length ≤ n.digits + 8 := by
  obtain ⟨hexponent, hadjusted⟩ := h
  simp only [toSci]
  rw [if_pos ⟨hexponent, hadjusted⟩, List.length_append, length_signText, length_pointText]
  have hdigits : 0 < n.digits := List.length_pos_of_ne_nil (decimal_ne_nil _)
  simp only [adjusted] at hadjusted
  simp only [digits] at *
  split_ifs <;> omega

end Number

end Ssgx.Support
