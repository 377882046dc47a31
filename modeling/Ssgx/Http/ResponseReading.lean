import Ssgx.Http.ResponseWire
import Ssgx.Support.Phases

/-!
# What the response parser reads

The parser goes through its states in phases. Each lemma below is the equivalence for one phase;
the status line (`reads_statusLine`) and the header lines (`reads_lines`) are here, the bodies in
`Ssgx.Http.ResponseBodies`.
-/

set_option autoImplicit false

namespace Ssgx.Http

open Ssgx.Support

/-! ## Completion -/

section Completion

variable {S : Type}

/-- The parser completes a response in a state of `Q`, and leaves `rest` unread. -/
def ResponseParser.Completes (parser : ResponseParser S) (Q : S → Prop) (rest : Str) :
    S → Str → Prop
  | _, [] => False
  | s, input :: text =>
      match parser.consume s input with
      | (s', .parsingIncompleted) => parser.Completes Q rest s' text
      | (s', .parsingCompleted) => Q s' ∧ text = rest
      | (_, .parsingError) => False

variable {parser : ResponseParser S} {Q : S → Prop} {rest : Str}

theorem completes_goes {s s' : S} {input : Char}
    (h : parser.consume s input = (s', .parsingIncompleted)) (text : Str) :
    parser.Completes Q rest s (input :: text) ↔ parser.Completes Q rest s' text := by
  rw [ResponseParser.Completes, h]

theorem completes_ends {s s' : S} {input : Char}
    (h : parser.consume s input = (s', .parsingCompleted)) (text : Str) :
    parser.Completes Q rest s (input :: text) ↔ Q s' ∧ text = rest := by
  rw [ResponseParser.Completes, h]

theorem not_completes {s s' : S} {input : Char}
    (h : parser.consume s input = (s', .parsingError)) (text : Str) :
    ¬ parser.Completes Q rest s (input :: text) := by
  rw [ResponseParser.Completes, h]
  exact id

theorem not_completes_nil (s : S) : ¬ parser.Completes Q rest s [] := id

/-- Where the response is complete: before its last byte the parser is not done. -/
theorem completes_iff_parse (s : S) (text : Str) :
    parser.Completes Q rest s text ↔ ∃ front input s', text = front ++ input :: rest ∧
      (parser.parse s front).2 = .parsingIncompleted ∧
      parser.parse s (front ++ [input]) = (s', .parsingCompleted) ∧ Q s' := by
  induction text generalizing s with
  | nil =>
      refine iff_of_false (not_completes_nil s) ?_
      rintro ⟨front, input, s', h, -⟩
      simp at h
  | cons c text ih =>
      rcases hc : parser.consume s c with ⟨s₁, result⟩
      cases result with
      | parsingCompleted =>
          rw [completes_ends hc]
          constructor
          · rintro ⟨hQ, rfl⟩
            refine ⟨[], c, s₁, rfl, rfl, ?_, hQ⟩
            simp only [List.nil_append, ResponseParser.parse, hc]
          · rintro ⟨front, input, s', h, hopen, hdone, hQ⟩
            cases front with
            | nil =>
                cases h
                simp only [List.nil_append, ResponseParser.parse, hc] at hdone
                cases hdone
                exact ⟨hQ, rfl⟩
            | cons b front =>
                cases h
                simp [ResponseParser.parse, hc] at hopen
      | parsingIncompleted =>
          rw [completes_goes hc, ih]
          constructor
          · rintro ⟨front, input, s', rfl, hopen, hdone, hQ⟩
            refine ⟨c :: front, input, s', rfl, ?_, ?_, hQ⟩
            · simpa only [ResponseParser.parse, hc] using hopen
            · simpa only [List.cons_append, ResponseParser.parse, hc] using hdone
          · rintro ⟨front, input, s', h, hopen, hdone, hQ⟩
            cases front with
            | nil =>
                cases h
                simp [ResponseParser.parse, hc] at hdone
            | cons b front =>
                cases h
                simp only [List.cons_append, ResponseParser.parse, hc] at hopen hdone
                exact ⟨front, input, s', rfl, hopen, hdone, hQ⟩
      | parsingError =>
          refine iff_of_false (not_completes hc text) ?_
          rintro ⟨front, input, s', h, hopen, hdone, -⟩
          cases front with
          | nil =>
              cases h
              simp [ResponseParser.parse, hc] at hdone
          | cons b front =>
              cases h
              simp [ResponseParser.parse, hc] at hopen

end Completion

namespace HttpResponseParser

variable {heap : Nat} {Q : HttpResponseParser → Prop} {rest : Str}

/-- The parser from a state on. -/
abbrev Reads (heap : Nat) (Q : HttpResponseParser → Prop) (rest : Str) :
    HttpResponseParser → Str → Prop :=
  (parser heap).Completes Q rest

/-- The parser in another state. -/
def inState (p : HttpResponseParser) (state : ParserState) : HttpResponseParser :=
  { p with state := state }

theorem reads_goes {p p' : HttpResponseParser} {input : Char}
    (h : p.consume heap input = (p', .parsingIncompleted)) (text : Str) :
    Reads heap Q rest p (input :: text) ↔ Reads heap Q rest p' text :=
  completes_goes h text

theorem not_reads {p : HttpResponseParser} {input : Char} (h : p.consume heap input = p.error)
    (text : Str) : ¬ Reads heap Q rest p (input :: text) :=
  not_completes h text

theorem not_reads_nil (p : HttpResponseParser) : ¬ Reads heap Q rest p [] := not_completes_nil p

/-- A byte in a state that one byte leaves, for another one. -/
theorem reads_stop {p p' : HttpResponseParser} {stop c : Char}
    (hgoes : p.consume heap stop = (p', .parsingIncompleted))
    (hother : c ≠ stop → p.consume heap c = p.error) (text : Str) :
    Reads heap Q rest p (c :: text) ↔ c = stop ∧ Reads heap Q rest p' text := by
  by_cases hc : c = stop
  · subst hc
    rw [reads_goes hgoes]
    exact (and_iff_right rfl).symm
  · exact iff_of_false (not_reads (hother hc) text) fun h => hc h.1

/-- A state that one byte leaves. -/
theorem reads_literal (p p' : HttpResponseParser) (a : Char)
    (hgoes : p.consume heap a = (p', .parsingIncompleted))
    (hother : ∀ c, c ≠ a → p.consume heap c = p.error) (text : Str) :
    Reads heap Q rest p text ↔ ∃ t, text = a :: t ∧ Reads heap Q rest p' t := by
  cases text with
  | nil => simp [not_reads_nil]
  | cons c text =>
      rw [reads_stop hgoes (hother c)]
      constructor
      · rintro ⟨rfl, h⟩
        exact ⟨text, rfl, h⟩
      · rintro ⟨t, heq, h⟩
        cases heq
        exact ⟨rfl, h⟩

/-! ## The status line -/

/-- The parser on its way through the status line. -/
def onStatus (major minor code reason : Str) (state : ParserState) : HttpResponseParser :=
  { fresh with
    state := state
    resp := { ParsedResponse.fresh with
      versionMajor := toInt32 (ofDecimal major)
      versionMinor := toInt32 (ofDecimal minor)
      statusCode := ofDecimal code % 2 ^ 32
      status := reason } }

theorem ofDecimal_singleton (c : Char) : ofDecimal [c] = c.toNat - 48 := by
  have h := ofDecimal_snoc [] c
  rwa [List.nil_append, show ofDecimal [] = 0 from rfl, Nat.mul_zero, Nat.zero_add] at h

theorem digit_le {c : Char} (h : c.isDigit = true) : c.toNat - 48 ≤ 9 := by
  have hc := (isDigit_iff c).1 h
  omega

/-- The first digit of a number, in an `int`. -/
theorem toInt32_first {c : Char} (h : c.isDigit = true) :
    ((c.toNat - 48 : Nat) : Int) = toInt32 (ofDecimal [c]) := by
  have hle := digit_le h
  rw [ofDecimal_singleton, toInt32, Int.bmod_eq_of_le (by omega) (by omega)]

/-- One more digit of a number, in an `int`. -/
theorem toInt32_digit (read : Str) (c : Char) :
    toInt32 (toInt32 (ofDecimal read) * 10 + (c.toNat - 48 : Nat)) =
      toInt32 (ofDecimal (read ++ [c])) := by
  rw [ofDecimal_snoc, toInt32, toInt32, Int.add_bmod, Int.bmod_mul_bmod, ← Int.add_bmod, toInt32]
  congr 1
  rw [Int.natCast_add, Int.natCast_mul, Int.mul_comm]
  rfl

/-- One more digit of a number, in an `unsigned int`. -/
theorem uint32_digit (read : Str) (c : Char) :
    (ofDecimal read % 2 ^ 32 * 10 + (c.toNat - 48)) % 2 ^ 32 =
      ofDecimal (read ++ [c]) % 2 ^ 32 := by
  rw [ofDecimal_snoc]
  omega

/-- `HTTP/`. -/
theorem reads_http (text : Str) :
    Reads heap Q rest fresh text ↔ ∃ t, text = str "HTTP/" ++ t ∧
      Reads heap Q rest (onStatus [] [] [] [] .responseHttpVersionMajorStart) t := by
  have literal : ∀ (state state' : ParserState) (a : Char),
      (onStatus [] [] [] [] state).consume heap a =
        (onStatus [] [] [] [] state', .parsingIncompleted) →
      (∀ c, c ≠ a → (onStatus [] [] [] [] state).consume heap c =
        (onStatus [] [] [] [] state).error) → ∀ text,
      Reads heap Q rest (onStatus [] [] [] [] state) text ↔
        ∃ t, text = a :: t ∧ Reads heap Q rest (onStatus [] [] [] [] state') t :=
    fun state state' a => reads_literal (onStatus [] [] [] [] state) (onStatus [] [] [] [] state') a
  have h₁ := literal .responseStatusStart .responseHttpVersionHt 'H' rfl fun c hc => if_neg hc
  have h₂ := literal .responseHttpVersionHt .responseHttpVersionHtt 'T' rfl fun c hc => if_neg hc
  have h₃ := literal .responseHttpVersionHtt .responseHttpVersionHttp 'T' rfl fun c hc => if_neg hc
  have h₄ := literal .responseHttpVersionHttp .responseHttpVersionSlash 'P' rfl
    fun c hc => if_neg hc
  have h₅ := literal .responseHttpVersionSlash .responseHttpVersionMajorStart '/' rfl
    fun c hc => if_neg hc
  show Reads heap Q rest (onStatus [] [] [] [] .responseStatusStart) text ↔ _
  constructor
  · intro h
    obtain ⟨t₁, rfl, h⟩ := (h₁ _).1 h
    obtain ⟨t₂, rfl, h⟩ := (h₂ _).1 h
    obtain ⟨t₃, rfl, h⟩ := (h₃ _).1 h
    obtain ⟨t₄, rfl, h⟩ := (h₄ _).1 h
    obtain ⟨t₅, rfl, h⟩ := (h₅ _).1 h
    exact ⟨t₅, rfl, h⟩
  · rintro ⟨t, rfl, h⟩
    exact (h₁ _).2 ⟨_, rfl, (h₂ _).2 ⟨_, rfl, (h₃ _).2 ⟨_, rfl, (h₄ _).2 ⟨_, rfl,
      (h₅ _).2 ⟨_, rfl, h⟩⟩⟩⟩⟩

/-- A number in the status line: a digit, and digits up to a stop. -/
theorem reads_number {begins : HttpResponseParser} (st : Str → HttpResponseParser) {stop : Char}
    {Next : Str → Str → Prop}
    (hfirst : ∀ c, c.isDigit = true → begins.consume heap c = (st [c], .parsingIncompleted))
    (hother : ∀ c, c.isDigit = false → begins.consume heap c = begins.error)
    (hstop : stop.isDigit = false)
    (hloop : ∀ read c, c.isDigit = true →
      (st read).consume heap c = (st (read ++ [c]), .parsingIncompleted))
    (hleave : ∀ read c t, c.isDigit = false →
      (Reads heap Q rest (st read) (c :: t) ↔ c = stop ∧ Next read t)) (text : Str) :
    Reads heap Q rest begins text ↔
      ∃ number t, text = number ++ stop :: t ∧ IsNumber number ∧ Next number t := by
  have hbegin : ∀ c t, Reads heap Q rest begins (c :: t) ↔
      c.isDigit = true ∧ Reads heap Q rest (st [c]) t := by
    intro c t
    cases hc : c.isDigit with
    | false => simp [not_reads (hother c hc)]
    | true => rw [reads_goes (hfirst c hc), and_iff_right rfl]
  rw [accepts_some_until st Next (not_reads_nil begins) hbegin hstop (fun read => not_reads_nil _)
    (fun read c t hc => reads_goes (hloop read c hc) t) hleave]
  constructor
  · rintro ⟨c, digits, t, rfl, hc, hdigits, h⟩
    exact ⟨c :: digits, t, rfl, ⟨by simp, List.forall_mem_cons.2 ⟨hc, hdigits⟩⟩, h⟩
  · rintro ⟨number, t, rfl, ⟨hne, hall⟩, h⟩
    obtain ⟨c, digits, rfl⟩ := List.exists_cons_of_ne_nil hne
    obtain ⟨hc, hdigits⟩ := List.forall_mem_cons.1 hall
    exact ⟨c, digits, t, rfl, hc, hdigits, h⟩

theorem ne_of_isDigit {c stop : Char} (hstop : stop.isDigit = false) (h : c.isDigit = true) :
    c ≠ stop := by
  rintro rfl
  rw [h] at hstop
  cases hstop

theorem reads_major (text : Str) :
    Reads heap Q rest (onStatus [] [] [] [] .responseHttpVersionMajorStart) text ↔
      ∃ major t, text = major ++ '.' :: t ∧ IsNumber major ∧
        Reads heap Q rest (onStatus major [] [] [] .responseHttpVersionMinorStart) t := by
  refine reads_number (fun read => onStatus read [] [] [] .responseHttpVersionMajor)
    ?_ ?_ rfl ?_ ?_ text
  · intro c hc
    simp only [onStatus, consume, if_pos hc, goTo]
    rw [toInt32_first hc]
  · intro c hc
    simp only [onStatus, consume, hc, Bool.false_eq_true, if_false]
  · intro read c hc
    have hne : c ≠ '.' := ne_of_isDigit rfl hc
    simp only [onStatus, consume, if_neg hne, if_pos hc, goTo, toInt32_digit]
  · intro read c t hc
    refine reads_stop rfl (fun hne => ?_) t
    simp only [onStatus, consume, if_neg hne, hc, Bool.false_eq_true, if_false]

theorem reads_minor (major text : Str) :
    Reads heap Q rest (onStatus major [] [] [] .responseHttpVersionMinorStart) text ↔
      ∃ minor t, text = minor ++ ' ' :: t ∧ IsNumber minor ∧
        Reads heap Q rest (onStatus major minor [] [] .responseHttpVersionStatusCodeStart) t := by
  refine reads_number (fun read => onStatus major read [] [] .responseHttpVersionMinor)
    ?_ ?_ rfl ?_ ?_ text
  · intro c hc
    simp only [onStatus, consume, if_pos hc, goTo]
    rw [toInt32_first hc]
  · intro c hc
    simp only [onStatus, consume, hc, Bool.false_eq_true, if_false]
  · intro read c hc
    have hne : c ≠ ' ' := ne_of_isDigit rfl hc
    simp only [onStatus, consume, if_neg hne, if_pos hc, goTo, toInt32_digit]
  · intro read c t hc
    have hzero : ofDecimal [] % 2 ^ 32 = 0 := Nat.zero_mod _
    refine reads_stop ?_ (fun hne => ?_) t
    · simp only [onStatus, consume, if_true, goTo, hzero]
    simp only [onStatus, consume, if_neg hne, hc, Bool.false_eq_true, if_false]

/-- The status that `ResponseHttpVersion_statusCode` lets pass. -/
def StatusInRange (code : Str) : Prop :=
  100 ≤ ofDecimal code % 2 ^ 32 ∧ ofDecimal code % 2 ^ 32 ≤ 999

theorem reads_code (major minor text : Str) :
    Reads heap Q rest (onStatus major minor [] [] .responseHttpVersionStatusCodeStart) text ↔
      ∃ code t, text = code ++ ' ' :: t ∧ IsNumber code ∧ StatusInRange code ∧
        Reads heap Q rest (onStatus major minor code [] .responseHttpVersionStatusTextStart) t := by
  refine reads_number
    (fun read => onStatus major minor read [] .responseHttpVersionStatusCode) ?_ ?_
    rfl ?_ ?_ text
  · intro c hc
    have hle := digit_le hc
    simp only [onStatus, consume, if_pos hc, goTo, ofDecimal_singleton]
    rw [Nat.mod_eq_of_lt (a := c.toNat - 48) (by omega)]
  · intro c hc
    simp only [onStatus, consume, hc, Bool.false_eq_true, if_false]
  · intro read c hc
    simp only [onStatus, consume, if_pos hc, goTo, uint32_digit]
  · intro read c t hc
    have hdigit : ¬ c.isDigit = true := by
      rw [hc]
      exact Bool.false_ne_true
    by_cases hrange : StatusInRange read
    · -- in range, the blank leaves the state
      have hin : ¬ (ofDecimal read % 2 ^ 32 < 100 ∨ ofDecimal read % 2 ^ 32 > 999) := by
        obtain ⟨hlow, hhigh⟩ := hrange
        omega
      rw [and_iff_right hrange]
      refine reads_stop ?_ (fun hne => ?_) t
      · have hblank : ' '.isDigit = false := rfl
        simp only [onStatus, consume, hblank, Bool.false_eq_true, if_false, if_neg hin, if_true,
          goTo]
      · simp only [onStatus, consume, if_neg hdigit, if_neg hin, if_neg hne]
    · refine iff_of_false (not_reads ?_ t) fun h => hrange h.2.1
      have hout : ofDecimal read % 2 ^ 32 < 100 ∨ ofDecimal read % 2 ^ 32 > 999 := by
        simp only [StatusInRange] at hrange
        omega
      simp only [onStatus, consume, if_neg hdigit]
      exact if_pos hout

theorem reads_reason (major minor code text : Str) :
    Reads heap Q rest (onStatus major minor code [] .responseHttpVersionStatusTextStart) text ↔
      ∃ reason t, text = reason ++ '\r' :: t ∧ IsReason reason ∧
        Reads heap Q rest (onStatus major minor code reason .responseHttpVersionNewLine) t := by
  have hbegin : ∀ c t, Reads heap Q rest
      (onStatus major minor code [] .responseHttpVersionStatusTextStart) (c :: t) ↔
        isChar c = true ∧ Reads heap Q rest
          (onStatus major minor code [c] .responseHttpVersionStatusText) t := by
    intro c t
    by_cases hc : isChar c = true
    · rw [and_iff_right hc]
      refine reads_goes ?_ t
      simp only [onStatus, consume, if_pos hc, goTo, List.nil_append]
    · refine iff_of_false (not_reads ?_ t) fun h => hc h.1
      simp only [onStatus, consume, if_neg hc]
  have hstop : isReasonChar '\r' = false := rfl
  rw [accepts_some_until
    (fun read => onStatus major minor code read .responseHttpVersionStatusText)
    (fun read t => Reads heap Q rest (onStatus major minor code read .responseHttpVersionNewLine) t)
    (not_reads_nil _) hbegin hstop fun read => not_reads_nil _]
  · constructor
    · rintro ⟨c, span, t, rfl, hc, hspan, h⟩
      exact ⟨c :: span, t, rfl, ⟨hc, hspan⟩, h⟩
    · rintro ⟨reason, t, rfl, hreason, h⟩
      cases reason with
      | nil => exact hreason.elim
      | cons c span => exact ⟨c, span, t, rfl, hreason.1, hreason.2, h⟩
  · intro read c t hc
    simp only [isReasonChar, Bool.and_eq_true, decide_eq_true_eq] at hc
    refine reads_goes ?_ t
    simp only [onStatus, consume, if_neg hc.1, if_pos hc.2, goTo]
  · intro read c t hc
    refine reads_stop rfl (fun hne => ?_) t
    have hchar : ¬ isChar c = true := by
      intro h
      simp [isReasonChar, h, hne] at hc
    simp only [onStatus, consume, if_neg hne, if_neg hchar]

/-- The parser between header lines. -/
def onLines (resp : ParsedResponse) (b : HeaderBlock) (state : ParserState) :
    HttpResponseParser :=
  { fresh with
    state := state
    contentSize := b.contentSize
    chunked := b.chunked
    resp := { resp with headers := b.headers } }

theorem onStatus_eq (s : StatusLine) :
    onStatus s.major s.minor s.code s.reason .headerLineStart =
      onLines s.response .start .headerLineStart := by
  simp only [onStatus, onLines, StatusLine.response, HeaderBlock.start, fresh,
    ParsedResponse.fresh]

/-- **The status line.** -/
theorem reads_statusLine (text : Str) :
    Reads heap Q rest fresh text ↔ ∃ (s : StatusLine) (t : Str), text = s.wire ++ t ∧
      Reads heap Q rest (onLines s.response .start .headerLineStart) t := by
  have hnewLine : ∀ major minor code reason text,
      Reads heap Q rest (onStatus major minor code reason .responseHttpVersionNewLine) text ↔
        ∃ t, text = '\n' :: t ∧
          Reads heap Q rest (onStatus major minor code reason .headerLineStart) t :=
    fun major minor code reason => reads_literal _ _ _ rfl fun c hc => if_neg hc
  rw [reads_http]
  constructor
  · rintro ⟨t, rfl, h⟩
    obtain ⟨major, t, rfl, hmajor, h⟩ := (reads_major t).1 h
    obtain ⟨minor, t, rfl, hminor, h⟩ := (reads_minor major t).1 h
    obtain ⟨code, t, rfl, hcode, hrange, h⟩ := (reads_code major minor t).1 h
    obtain ⟨reason, t, rfl, hreason, h⟩ := (reads_reason major minor code t).1 h
    obtain ⟨t, rfl, h⟩ := (hnewLine major minor code reason t).1 h
    refine ⟨⟨major, minor, code, reason, hmajor, hminor, hcode, hrange, hreason⟩, t, ?_, ?_⟩
    · simp [StatusLine.wire, crlf]
    · rwa [← onStatus_eq]
  · rintro ⟨s, t, rfl, h⟩
    rw [← onStatus_eq] at h
    obtain ⟨major, minor, code, reason, hmajor, hminor, hcode, hrange, hreason⟩ := s
    refine ⟨_, by rw [StatusLine.wire, List.append_assoc], ?_⟩
    refine (reads_major _).2 ⟨major, minor ++ ' ' :: (code ++ ' ' :: (reason ++ crlf)) ++ t,
      by simp, hmajor, ?_⟩
    refine (reads_minor major _).2 ⟨minor, code ++ ' ' :: (reason ++ crlf) ++ t, by simp,
      hminor, ?_⟩
    refine (reads_code major minor _).2 ⟨code, reason ++ crlf ++ t, by simp, hcode, hrange, ?_⟩
    refine (reads_reason major minor code _).2 ⟨reason, '\n' :: t, by simp [crlf], hreason, ?_⟩
    exact (hnewLine major minor code reason _).2 ⟨t, rfl, h⟩

/-! ## The header lines -/

theorem onLines_pushValue (resp : ParsedResponse) (b : HeaderBlock) (c : Char) :
    { onLines resp b .headerValue with resp := (onLines resp b .headerValue).resp.pushValue c } =
      onLines resp (b.extend [c]) .headerValue := rfl

/-- The end of a value. -/
theorem consume_endHeader {resp : ParsedResponse} {b : HeaderBlock} (hfits : b.contentSize ≤ heap) :
    (onLines resp b .headerValue).consume heap '\r' =
      if b.take.contentSize ≤ heap then
        (onLines resp b.take .expectingNewline2, .parsingIncompleted)
      else (onLines resp b.take .headerValue).throws := by
  show (onLines resp b .headerValue).endHeader heap = _
  have hheaders : (onLines resp b .headerValue).resp.headers = b.headers := rfl
  simp only [endHeader, HeaderBlock.take, hheaders]
  rcases Option.eq_none_or_eq_some b.headers.getLast? with hlast | ⟨h, hlast⟩
  · simp only [hlast]
    rw [if_pos hfits]
    rfl
  simp only [hlast]
  by_cases hlength : equalNoCase h.name (str "Content-Length") = true
  · simp only [if_pos hlength]
    by_cases hsize : heap < toSize (atoi h.value)
    · rw [if_pos hsize, if_neg (Nat.not_le.2 hsize)]
      rfl
    · rw [if_neg hsize, if_pos (Nat.not_lt.1 hsize)]
      rfl
  simp only [if_neg hlength]
  by_cases hcoding : equalNoCase h.name (str "Transfer-Encoding") = true
  · simp only [if_pos hcoding]
    by_cases hchunked : equalNoCase h.value (str "chunked") = true
    · simp only [if_pos hchunked]
      rw [if_pos hfits]
      rfl
    · simp only [if_neg hchunked]
      rw [if_pos hfits]
      rfl
  · simp only [if_neg hcoding]
    rw [if_pos hfits]
    rfl

/-- The line feed of a header line. -/
theorem reads_newline (resp : ParsedResponse) (b : HeaderBlock) (text : Str) :
    Reads heap Q rest (onLines resp b .expectingNewline2) text ↔ ∃ t, text = '\n' :: t ∧
      Reads heap Q rest (onLines resp b .headerLineStart) t :=
  reads_literal (onLines resp b .expectingNewline2) (onLines resp b .headerLineStart) '\n' rfl
    (fun _ hc => if_neg hc) text

/-- The rest of a value, and its line end. -/
theorem reads_value {resp : ParsedResponse} {b : HeaderBlock} (hb : b.headers ≠ [])
    (hfits : b.contentSize ≤ heap) (text : Str) :
    Reads heap Q rest (onLines resp b .headerValue) text ↔ ∃ piece t,
      text = piece ++ (crlf ++ t) ∧ Clean piece ∧ (b.extend piece).take.contentSize ≤ heap ∧
        Reads heap Q rest (onLines resp (b.extend piece).take .headerLineStart) t := by
  have hstop : (!isControl '\r') = false := rfl
  have hloop : ∀ read c t, (!isControl c) = true →
      (Reads heap Q rest (onLines resp (b.extend read) .headerValue) (c :: t) ↔
        Reads heap Q rest (onLines resp (b.extend (read ++ [c])) .headerValue) t) := by
    intro read c t hc
    have hcontrol : ¬ isControl c = true := by
      intro h
      rw [h] at hc
      cases hc
    have hne : c ≠ '\r' := by
      rintro rfl
      exact hcontrol rfl
    rw [← HeaderBlock.extend_extend hb]
    refine reads_goes ?_ t
    rw [← onLines_pushValue]
    simp only [onLines, consume, if_neg hne, if_neg hcontrol]
    rfl
  have hleave : ∀ read c t, (!isControl c) = false →
      (Reads heap Q rest (onLines resp (b.extend read) .headerValue) (c :: t) ↔ c = '\r' ∧
        ((b.extend read).take.contentSize ≤ heap ∧
          Reads heap Q rest (onLines resp (b.extend read).take .expectingNewline2) t)) := by
    intro read c t hc
    have hcontrol : isControl c = true := by simpa using hc
    by_cases hne : c = '\r'
    · subst hne
      have hconsume := @consume_endHeader heap resp (b.extend read) hfits
      rw [and_iff_right rfl]
      by_cases hsize : (b.extend read).take.contentSize ≤ heap
      · rw [if_pos hsize] at hconsume
        rw [reads_goes hconsume, and_iff_right hsize]
      · rw [if_neg hsize] at hconsume
        exact iff_of_false (not_completes hconsume t) fun h => hsize h.1
    · refine iff_of_false (not_reads ?_ t) fun h => hne h.1
      simp only [onLines, consume, if_neg hne, if_pos hcontrol]
  have hphase := accepts_until (fun read => onLines resp (b.extend read) .headerValue) _ hstop
    (fun read => not_reads_nil _) hloop hleave [] text
  simp only [HeaderBlock.extend_nil hb, List.nil_append] at hphase
  rw [hphase]
  constructor
  · rintro ⟨piece, t, rfl, hclean, hsize, h⟩
    obtain ⟨t, rfl, h⟩ := (reads_newline resp _ t).1 h
    exact ⟨piece, t, rfl, fun c hc => by simpa using hclean c hc, hsize, h⟩
  · rintro ⟨piece, t, rfl, hclean, hsize, h⟩
    refine ⟨piece, '\n' :: t, rfl, ?_, hsize, (reads_newline resp _ _).2 ⟨t, rfl, h⟩⟩
    intro c hc
    rw [hclean c hc]
    rfl

/-- The bytes that `HeaderLineStart` and `HeaderName` refuse. -/
theorem isNameChar_iff (c : Char) :
    (!isChar c || isControl c || isSpecial c) = true ↔ isNameChar c = false := by
  simp only [isNameChar]
  cases isChar c
  · simp
  · cases isControl c
    · cases isSpecial c
      · simp
      · simp
    · simp

/-- The rest of a header line, behind the first byte of its name. -/
theorem reads_name {resp : ParsedResponse} {b : HeaderBlock} (hfits : b.contentSize ≤ heap)
    (first : Char) (text : Str) :
    Reads heap Q rest (onLines resp (b.push [first] []) .headerName) text ↔
      ∃ name value t, text = name ++ ':' :: ' ' :: (value ++ (crlf ++ t)) ∧
        (∀ c ∈ name, isNameChar c = true) ∧ Clean value ∧
        (b.push (first :: name) value).take.contentSize ≤
          heap ∧
        Reads heap Q rest (onLines resp
          (b.push (first :: name) value).take
          .headerLineStart) t := by
  have hstop : isNameChar ':' = false := rfl
  have hloop : ∀ read c t, isNameChar c = true →
      (Reads heap Q rest (onLines resp
          (b.push (first :: read) []) .headerName)
          (c :: t) ↔
        Reads heap Q rest (onLines resp
          (b.push (first :: (read ++ [c])) [])
          .headerName) t) := by
    intro read c t hc
    have hne : c ≠ ':' := by
      rintro rfl
      cases hc
    have hpasses : ¬ (!isChar c || isControl c || isSpecial c) = true := by
      rw [isNameChar_iff, hc]
      exact Bool.noConfusion
    refine reads_goes ?_ t
    simp only [onLines, consume, if_neg hne, if_neg hpasses, ParsedResponse.pushName, goTo,
      HeaderBlock.push, List.modifyLast_concat, List.cons_append]
  have hleave : ∀ read c t, isNameChar c = false →
      (Reads heap Q rest (onLines resp
          (b.push (first :: read) []) .headerName)
          (c :: t) ↔ c = ':' ∧
        Reads heap Q rest (onLines resp
          (b.push (first :: read) [])
          .spaceBeforeHeaderValue) t) := by
    intro read c t hc
    refine reads_stop rfl (fun hne => ?_) t
    simp only [onLines, consume, if_neg hne, if_pos ((isNameChar_iff c).2 hc)]
  have hspace : ∀ b' t, Reads heap Q rest (onLines resp b' .spaceBeforeHeaderValue) t ↔
      ∃ t', t = ' ' :: t' ∧ Reads heap Q rest (onLines resp b' .headerValue) t' :=
    fun b' => reads_literal _ _ _ rfl fun c hc => if_neg hc
  have hphase := accepts_until (fun read => onLines resp
    (b.push (first :: read) []) .headerName) _ hstop
    (fun read => not_reads_nil _) hloop hleave [] text
  simp only [List.nil_append] at hphase
  rw [hphase]
  -- behind the name stand a blank and a value
  have hvalue : ∀ name t, Reads heap Q rest (onLines resp
        (b.push (first :: name) []) .headerValue) t ↔ _ :=
    fun name t => reads_value (b.push_ne_nil _ _) hfits t
  simp only [HeaderBlock.extend_push] at hvalue
  constructor
  · rintro ⟨name, t, rfl, hname, h⟩
    obtain ⟨t, rfl, h⟩ := (hspace _ t).1 h
    obtain ⟨value, t, rfl, hclean, hsize, h⟩ := (hvalue name t).1 h
    exact ⟨name, value, t, rfl, hname, hclean, hsize, h⟩
  · rintro ⟨name, value, t, rfl, hname, hclean, hsize, h⟩
    refine ⟨name, ' ' :: (value ++ (crlf ++ t)), rfl, hname, (hspace _ _).2 ⟨_, rfl, ?_⟩⟩
    exact (hvalue name _).2 ⟨value, t, rfl, hclean, hsize, h⟩

theorem isBlank_iff (c : Char) : isBlank c = true ↔ c = ' ' ∨ c = '\t' := by simp [isBlank]

theorem not_blank_iff (c : Char) : isBlank c = false ↔ ¬ (c = ' ' ∨ c = '\t') := by
  rw [← isBlank_iff, Bool.not_eq_true]

/-- The first byte of a continuation behind its blanks. -/
theorem consume_lws {resp : ParsedResponse} {b : HeaderBlock} {c : Char} (hcr : c ≠ '\r')
    (hblank : isBlank c = false) :
    (onLines resp b .headerLws).consume heap c =
      if isControl c then (onLines resp b .headerLws).error
      else (onLines resp (b.extend [c]) .headerValue, .parsingIncompleted) := by
  simp only [onLines, consume, if_neg hcr, if_neg ((not_blank_iff c).1 hblank)]
  rfl

/-- The rest of a continuation, behind its first blank. -/
theorem reads_fold {resp : ParsedResponse} {b : HeaderBlock} (hb : b.headers ≠ [])
    (hfits : b.contentSize ≤ heap) (text : Str) :
    Reads heap Q rest (onLines resp b .headerLws) text ↔ ∃ indent piece t,
      text = indent ++ (piece ++ (crlf ++ t)) ∧ (∀ c ∈ indent, isBlank c = true) ∧ Clean piece ∧
        (∀ c ∈ piece.head?, isBlank c = false) ∧
        (if piece = [] then b else (b.extend piece).take).contentSize ≤ heap ∧
        Reads heap Q rest (onLines resp (if piece = [] then b else (b.extend piece).take)
          .headerLineStart) t := by
  have hloop : ∀ (read : Str) c t, isBlank c = true →
      (Reads heap Q rest (onLines resp b .headerLws) (c :: t) ↔
        Reads heap Q rest (onLines resp b .headerLws) t) := by
    intro read c t hc
    have hblank := (isBlank_iff c).1 hc
    have hne : c ≠ '\r' := by
      rintro rfl
      cases hc
    refine reads_goes ?_ t
    simp only [onLines, consume, if_neg hne, if_pos hblank, goTo]
  rw [accepts_span (fun _ : Str => onLines resp b .headerLws) (fun read => not_reads_nil _)
    hloop []]
  constructor
  · rintro ⟨indent, c, t, rfl, hindent, hc, h⟩
    by_cases hcr : c = '\r'
    · -- the line has no more than its blanks
      subst hcr
      obtain ⟨t, rfl, h⟩ := (reads_newline resp b t).1 ((reads_goes rfl t).1 h)
      exact ⟨indent, [], t, rfl, hindent, by simp [Clean], by simp, hfits, h⟩
    · have hconsume := @consume_lws heap resp b c hcr hc
      by_cases hcontrol : isControl c = true
      · rw [if_pos hcontrol] at hconsume
        exact absurd h (not_reads hconsume t)
      · rw [if_neg hcontrol] at hconsume
        rw [reads_goes hconsume, reads_value (HeaderBlock.extend_ne_nil hb _) hfits] at h
        obtain ⟨piece, t, rfl, hclean, hsize, h⟩ := h
        rw [HeaderBlock.extend_extend hb, List.singleton_append] at hsize h
        refine ⟨indent, c :: piece, t, rfl, hindent, ?_, ?_, ?_, ?_⟩
        · exact List.forall_mem_cons.2 ⟨by simpa using hcontrol, hclean⟩
        · simpa using hc
        · rwa [if_neg (List.cons_ne_nil _ _)]
        · rwa [if_neg (List.cons_ne_nil _ _)]
  · rintro ⟨indent, piece, t, rfl, hindent, hclean, hstarts, hsize, h⟩
    cases piece with
    | nil =>
        refine ⟨indent, '\r', '\n' :: t, rfl, hindent, rfl, (reads_goes rfl _).2 ?_⟩
        exact (reads_newline resp b _).2 ⟨t, rfl, h⟩
    | cons c piece =>
        obtain ⟨hcontrol, hclean⟩ := List.forall_mem_cons.1 hclean
        have hblank : isBlank c = false := hstarts c rfl
        refine ⟨indent, c, piece ++ (crlf ++ t), rfl, hindent, hblank, ?_⟩
        have hcr : c ≠ '\r' := by
          rintro rfl
          cases hcontrol
        have hconsume := @consume_lws heap resp b c hcr hblank
        rw [hcontrol, if_neg Bool.false_ne_true] at hconsume
        rw [if_neg (List.cons_ne_nil _ _)] at hsize h
        rw [reads_goes hconsume, reads_value (HeaderBlock.extend_ne_nil hb _) hfits]
        refine ⟨piece, t, rfl, hclean, ?_, ?_⟩
        · rwa [HeaderBlock.extend_extend hb]
        · rwa [HeaderBlock.extend_extend hb]

/-- The first blank of a continuation. -/
theorem consume_foldStart (resp : ParsedResponse) {b : HeaderBlock} {c : Char}
    (hb : b.headers ≠ []) (hblank : isBlank c = true) :
    (onLines resp b .headerLineStart).consume heap c =
      (onLines resp b .headerLws, .parsingIncompleted) := by
  have hcr : c ≠ '\r' := by
    rintro rfl
    cases hblank
  have hfold : (!b.headers.isEmpty && isBlank c) = true := by
    rw [hblank, Bool.and_true, Bool.not_eq_true', List.isEmpty_eq_false_iff]
    exact hb
  simp only [onLines, consume, if_neg hcr]
  exact if_pos hfold

/-- The first byte of a name. -/
theorem consume_nameStart (resp : ParsedResponse) (b : HeaderBlock) {c : Char}
    (hname : isNameChar c = true) :
    (onLines resp b .headerLineStart).consume heap c =
      (onLines resp (b.push [c] []) .headerName, .parsingIncompleted) := by
  have hcr : c ≠ '\r' := by
    rintro rfl
    cases hname
  have hblank : ¬ (!b.headers.isEmpty && isBlank c) = true := by
    intro h
    rcases (isBlank_iff c).1 (Bool.and_eq_true_iff.1 h).2 with rfl | rfl
    · cases hname
    · cases hname
  have hpasses : ¬ (!isChar c || isControl c || isSpecial c) = true := by
    rw [isNameChar_iff, hname]
    exact Bool.noConfusion
  simp only [onLines, consume, if_neg hcr]
  exact (if_neg hblank).trans (if_neg hpasses)

/-- Any other byte at the beginning of a line. -/
theorem consume_otherStart (resp : ParsedResponse) {b : HeaderBlock} {c : Char} (hcr : c ≠ '\r')
    (hfold : ¬ (!b.headers.isEmpty && isBlank c) = true) (hname : isNameChar c = false) :
    (onLines resp b .headerLineStart).consume heap c =
      (onLines resp b .headerLineStart).error := by
  simp only [onLines, consume, if_neg hcr]
  exact (if_neg hfold).trans (if_pos ((isNameChar_iff c).2 hname))

/-- The parser before a header line: the end of the headers, or one line. -/
theorem reads_line {resp : ParsedResponse} {b : HeaderBlock} (hfits : b.contentSize ≤ heap)
    (text : Str) :
    Reads heap Q rest (onLines resp b .headerLineStart) text ↔
      (∃ t, text = '\r' :: t ∧ Reads heap Q rest (onLines resp b .expectingNewline3) t) ∨
      ∃ (line : HeaderLine) (t : Str), text = line.wire ++ t ∧ b.Admits heap line ∧
        Reads heap Q rest (onLines resp (b.line line) .headerLineStart) t := by
  constructor
  · intro h
    cases text with
    | nil => exact absurd h (not_reads_nil _)
    | cons c text =>
        by_cases hcr : c = '\r'
        · subst hcr
          exact .inl ⟨text, rfl, (reads_goes rfl text).1 h⟩
        right
        by_cases hfold : (!b.headers.isEmpty && isBlank c) = true
        · -- a continuation of the last value
          obtain ⟨hempty, hblank⟩ := Bool.and_eq_true_iff.1 hfold
          have hb : b.headers ≠ [] := by simpa using hempty
          obtain ⟨indent, piece, t, rfl, hindent, hclean, hstarts, hsize, h⟩ :=
            (reads_fold hb hfits text).1 ((reads_goes (consume_foldStart resp hb hblank) text).1 h)
          refine ⟨.fold (c :: indent) piece ⟨List.cons_ne_nil _ _, ?_⟩ hclean hstarts, t, ?_,
            ⟨fun _ => hb, hsize⟩, h⟩
          · exact List.forall_mem_cons.2 ⟨hblank, hindent⟩
          · simp [HeaderLine.wire]
        cases hname : isNameChar c with
        | true =>
            -- a new header
            obtain ⟨name, value, t, rfl, hall, hclean, hsize, h⟩ :=
              (reads_name hfits c text).1 ((reads_goes (consume_nameStart resp b hname) text).1 h)
            refine ⟨.field (c :: name) value ⟨List.cons_ne_nil _ _, ?_⟩ hclean, t, ?_,
              ⟨fun hcontinues => ?_, hsize⟩, h⟩
            · exact List.forall_mem_cons.2 ⟨hname, hall⟩
            · simp [HeaderLine.wire]
            · cases hcontinues
        | false => exact absurd h (not_reads (consume_otherStart resp hcr hfold hname) text)
  · rintro (⟨t, rfl, h⟩ | ⟨line, t, rfl, ⟨hcontinues, hsize⟩, h⟩)
    · exact (reads_goes rfl t).2 h
    · cases line with
      | field name value named clean =>
          obtain ⟨hne, hall⟩ := named
          obtain ⟨c, name, rfl⟩ := List.exists_cons_of_ne_nil hne
          obtain ⟨hname, hall⟩ := List.forall_mem_cons.1 hall
          simp only [HeaderLine.wire, List.append_assoc, List.cons_append]
          rw [reads_goes (consume_nameStart resp b hname), reads_name hfits]
          exact ⟨name, value, t, rfl, hall, clean, hsize, h⟩
      | fold indent piece blank clean starts =>
          obtain ⟨hne, hall⟩ := blank
          obtain ⟨c, indent, rfl⟩ := List.exists_cons_of_ne_nil hne
          obtain ⟨hblank, hall⟩ := List.forall_mem_cons.1 hall
          have hb := hcontinues rfl
          simp only [HeaderLine.wire, List.append_assoc, List.cons_append]
          rw [reads_goes (consume_foldStart resp hb hblank), reads_fold hb hfits]
          exact ⟨indent, piece, t, rfl, hall, clean, starts, hsize, h⟩

/-- A line of a header has its line end at least. -/
theorem wire_ne_nil (line : HeaderLine) : line.wire ≠ [] := by
  cases line with
  | field name value named clean => simp [HeaderLine.wire]
  | fold indent piece blank clean starts => simp [HeaderLine.wire, crlf]

/-- **The header lines.** -/
theorem reads_lines (resp : ParsedResponse) {b : HeaderBlock} (hfits : b.contentSize ≤ heap)
    (text : Str) :
    Reads heap Q rest (onLines resp b .headerLineStart) text ↔ ∃ lines t,
      text = lines.flatMap HeaderLine.wire ++ '\r' :: t ∧
        Along HeaderBlock.line (HeaderBlock.Admits heap) b lines ∧
        Reads heap Q rest (onLines resp (runFrom HeaderBlock.line b lines) .expectingNewline3)
          t := by
  -- the length that is announced fits into the memory before every line
  have hstep : ∀ (b : HeaderBlock) (text : Str),
      (b.contentSize ≤ heap ∧ Reads heap Q rest (onLines resp b .headerLineStart) text) ↔
      (b.contentSize ≤ heap ∧ ∃ t, text = '\r' :: t ∧
        Reads heap Q rest (onLines resp b .expectingNewline3) t) ∨
      ∃ line t, text = line.wire ++ t ∧ (b.contentSize ≤ heap ∧ b.Admits heap line) ∧
        ((b.line line).contentSize ≤ heap ∧
          Reads heap Q rest (onLines resp (b.line line) .headerLineStart) t) := by
    intro b text
    constructor
    · rintro ⟨hfits, h⟩
      rcases (reads_line hfits text).1 h with ⟨t, rfl, h⟩ | ⟨line, t, rfl, hadmits, h⟩
      · exact .inl ⟨hfits, t, rfl, h⟩
      · exact .inr ⟨line, t, rfl, ⟨hfits, hadmits⟩, hadmits.fits, h⟩
    · rintro (⟨hfits, t, rfl, h⟩ | ⟨line, t, rfl, ⟨hfits, hadmits⟩, -, h⟩)
      · exact ⟨hfits, (reads_line hfits _).2 (.inl ⟨t, rfl, h⟩)⟩
      · exact ⟨hfits, (reads_line hfits _).2 (.inr ⟨line, t, rfl, hadmits, h⟩)⟩
  have hrepeat := accepts_repeat HeaderBlock.line wire_ne_nil hstep b text
  rw [and_iff_right hfits] at hrepeat
  rw [hrepeat]
  constructor
  · rintro ⟨lines, _, rfl, halong, -, t, rfl, h⟩
    exact ⟨lines, t, rfl, halong.imp fun _ _ h => h.2, h⟩
  · rintro ⟨lines, t, rfl, halong, h⟩
    have hkeep : ∀ (b : HeaderBlock) line, b.Admits heap line → b.contentSize ≤ heap →
        (b.line line).contentSize ≤ heap := fun _ _ hadmits _ => hadmits.fits
    refine ⟨lines, _, rfl, ?_, ?_, t, rfl, h⟩
    · exact halong.of_invariant hkeep (fun _ _ hadmits hfits => ⟨hfits, hadmits⟩) hfits
    · exact invariant_runFrom hkeep halong hfits

end HttpResponseParser

end Ssgx.Http
