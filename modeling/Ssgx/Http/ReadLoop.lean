import Mathlib.Data.List.Induction
import Ssgx.Http.Client
import Ssgx.Support.Waiting

/-!
# When a response is reported

`http_read` has one return value for three ends of its loop: the response is complete, the stream is
at its end, or the parser has found an error. In all three it returns the number of bytes read, and
`DoRequest` takes every positive number for success.

`Reading` describes the answers over which the loop goes on, and `httpRead_eq_some_iff` says how it
ends at the first other answer. A success without a complete response is an answer of the kind
`Interrupted` (`reported_response_iff`).
-/

set_option autoImplicit false

namespace Ssgx.Http

open Ssgx.Support

variable {S : Type} {parser : ResponseParser S}

/-! ## The parser on a stream -/

/-- A parser that is not done goes on with the next bytes. -/
theorem ResponseParser.parse_append {s s' : S} {text : Str}
    (h : parser.parse s text = (s', .parsingIncompleted)) (more : Str) :
    parser.parse s (text ++ more) = parser.parse s' more := by
  induction text generalizing s with
  | nil =>
      cases h
      rfl
  | cons input rest ih =>
      simp only [List.cons_append, ResponseParser.parse] at h ⊢
      rcases hc : parser.consume s input with ⟨s₁, result⟩
      rw [hc] at h
      cases result with
      | parsingCompleted => cases h
      | parsingError => cases h
      | parsingIncompleted => exact ih h

/-- A parser that is not done with a text was not done with its beginning. -/
theorem ResponseParser.parse_of_append {s : S} {text more : Str}
    (h : (parser.parse s (text ++ more)).2 = .parsingIncompleted) :
    (parser.parse s text).2 = .parsingIncompleted := by
  induction text generalizing s with
  | nil => rfl
  | cons input rest ih =>
      simp only [List.cons_append, ResponseParser.parse] at h ⊢
      rcases hc : parser.consume s input with ⟨s₁, result⟩
      rw [hc] at h
      cases result with
      | parsingCompleted => cases h
      | parsingError => cases h
      | parsingIncompleted => exact ih h

/-! ## The loop -/

/-- After these answers the loop is still reading: with this number of retries, this `read_size`,
this state of the parser and these bytes received. -/
inductive Reading (parser : ResponseParser S) : List ReadAnswer → Nat → Int → S → Str → Prop where
  | start : Reading parser [] 0 0 parser.start []
  | wait {answers : List ReadAnswer} {retries : Nat} {readSize : Int} {s : S} {received : Str}
      {a : ReadAnswer} (before : Reading parser answers retries readSize s received)
      (wants : a.ret = errSslWantRead) (few : retries + 1 ≤ maxRetries) :
      Reading parser (answers ++ [a]) (retries + 1) readSize s received
  | chunk {answers : List ReadAnswer} {retries : Nat} {readSize : Int} {s s' : S} {received : Str}
      {a : ReadAnswer} (before : Reading parser answers retries readSize s received)
      (some : 0 < a.ret) (parsed : parser.parse s a.data = (s', .parsingIncompleted)) :
      Reading parser (answers ++ [a]) 0 (toInt32 (readSize + a.ret)) s' (received ++ a.data)

/-- The answer at which the loop ends, and how. -/
inductive EndsAt (parser : ResponseParser S) (retries : Nat) (readSize : Int) (s : S)
    (received : Str) (a : ReadAnswer) : ReadEnd S → Prop where
  | retries (wants : a.ret = errSslWantRead) (many : maxRetries < retries + 1) :
      EndsAt parser retries readSize s received a ⟨-1, s, received⟩
  | failed (negative : a.ret < 0) (other : a.ret ≠ errSslWantRead) :
      EndsAt parser retries readSize s received a ⟨a.ret, s, received⟩
  | endOfStream (zero : a.ret = 0) :
      EndsAt parser retries readSize s received a ⟨readSize, s, received⟩
  | parsed {s' : S} {result : ParseResult} (some : 0 < a.ret)
      (parses : parser.parse s a.data = (s', result)) (done : result ≠ .parsingIncompleted) :
      EndsAt parser retries readSize s received a
        ⟨toInt32 (readSize + a.ret), s', received ++ a.data⟩

/-- The bytes received so far leave the parser in its state. -/
theorem Reading.parsed {answers : List ReadAnswer} {retries : Nat} {readSize : Int} {s : S}
    {received : Str} (h : Reading parser answers retries readSize s received) :
    parser.parse parser.start received = (s, .parsingIncompleted) := by
  induction h with
  | start => rfl
  | wait before wants few ih => exact ih
  | chunk before some parsed ih =>
      rw [parser.parse_append ih]
      exact parsed

/-- An answer with bytes is no request to wait. -/
theorem ReadAnswer.ret_ne_wantRead {a : ReadAnswer} (h : 0 < a.ret) : a.ret ≠ errSslWantRead := by
  intro hwant
  rw [hwant] at h
  exact absurd h (by decide)

/-- The loop goes on behind answers over which it is reading. -/
theorem Reading.continues {answers : List ReadAnswer} {retries : Nat} {readSize : Int} {s : S}
    {received : Str} (h : Reading parser answers retries readSize s received)
    (rest : List ReadAnswer) :
    httpRead parser (answers ++ rest) = readAnswers parser rest retries readSize s received := by
  induction h generalizing rest with
  | start => rfl
  -- one more round: the counter has not passed the limit
  | @wait answers retries readSize s received a before wants few ih =>
      rw [List.append_assoc, ih, List.singleton_append]
      simp only [readAnswers]
      rw [if_pos wants, if_neg (Nat.not_lt.2 few)]
  | @chunk answers retries readSize s s' received a before hsome parsed ih =>
      rw [List.append_assoc, ih, List.singleton_append]
      simp only [readAnswers]
      rw [if_neg (ReadAnswer.ret_ne_wantRead hsome), if_neg (Int.not_lt.2 (Int.le_of_lt hsome)),
        if_neg (Int.ne_of_gt hsome), parsed]

/-- The loop ends at an answer of `EndsAt`. -/
theorem EndsAt.ends {retries : Nat} {readSize : Int} {s : S} {received : Str} {a : ReadAnswer}
    {e : ReadEnd S} (h : EndsAt parser retries readSize s received a e) (rest : List ReadAnswer) :
    readAnswers parser (a :: rest) retries readSize s received = some e := by
  simp only [readAnswers]
  cases h with
  | retries wants many => rw [if_pos wants, if_pos many]
  | failed negative other => rw [if_neg other, if_pos negative]
  | endOfStream zero =>
      rw [if_neg (by rw [zero]; decide), if_neg (by rw [zero]; decide), if_pos zero]
  | @parsed s' result hsome parses done =>
      rw [if_neg (ReadAnswer.ret_ne_wantRead hsome), if_neg (Int.not_lt.2 (Int.le_of_lt hsome)),
        if_neg (Int.ne_of_gt hsome), parses]
      cases result with
      | parsingCompleted => rfl
      | parsingError => rfl
      | parsingIncompleted => exact absurd rfl done

/-- A loop that ends, from a point where it is reading, ends at an answer of `EndsAt`. -/
theorem readAnswers_some {rest before : List ReadAnswer} {retries : Nat} {readSize : Int} {s : S}
    {received : Str} {e : ReadEnd S} (hreading : Reading parser before retries readSize s received)
    (h : readAnswers parser rest retries readSize s received = some e) :
    ∃ answers a after retries' readSize' s' received', before ++ rest = answers ++ a :: after ∧
      Reading parser answers retries' readSize' s' received' ∧
      EndsAt parser retries' readSize' s' received' a e := by
  induction rest generalizing before retries readSize s received with
  | nil => cases h
  | cons a rest ih =>
      have hmove : before ++ a :: rest = before ++ [a] ++ rest := by
        rw [List.append_assoc, List.singleton_append]
      simp only [readAnswers] at h
      by_cases hwant : a.ret = errSslWantRead
      · rw [if_pos hwant] at h
        by_cases hmany : maxRetries < retries + 1
        · rw [if_pos hmany] at h
          cases h
          exact ⟨before, a, rest, _, _, _, _, rfl, hreading, .retries hwant hmany⟩
        · rw [if_neg hmany] at h
          rw [hmove]
          exact ih (.wait hreading hwant (Nat.not_lt.1 hmany)) h
      rw [if_neg hwant] at h
      by_cases hneg : a.ret < 0
      · rw [if_pos hneg] at h
        cases h
        exact ⟨before, a, rest, _, _, _, _, rfl, hreading, .failed hneg hwant⟩
      rw [if_neg hneg] at h
      by_cases hzero : a.ret = 0
      · rw [if_pos hzero] at h
        cases h
        exact ⟨before, a, rest, _, _, _, _, rfl, hreading, .endOfStream hzero⟩
      rw [if_neg hzero] at h
      -- no error, no wait and no end of the stream: there are bytes
      have hsome : 0 < a.ret := by omega
      rcases hparse : parser.parse s a.data with ⟨s', result⟩
      rw [hparse] at h
      cases result with
      | parsingIncompleted =>
          rw [hmove]
          exact ih (.chunk hreading hsome hparse) h
      | parsingCompleted =>
          cases h
          exact ⟨before, a, rest, _, _, _, _, rfl, hreading, .parsed hsome hparse (by decide)⟩
      | parsingError =>
          cases h
          exact ⟨before, a, rest, _, _, _, _, rfl, hreading, .parsed hsome hparse (by decide)⟩

/-- **How `http_read` ends.** -/
theorem httpRead_eq_some_iff {reads : List ReadAnswer} {e : ReadEnd S} :
    httpRead parser reads = some e ↔
      ∃ answers a after retries readSize s received, reads = answers ++ a :: after ∧
        Reading parser answers retries readSize s received ∧
        EndsAt parser retries readSize s received a e := by
  constructor
  · intro h
    exact readAnswers_some .start h
  · rintro ⟨answers, a, after, retries, readSize, s, received, rfl, hreading, hends⟩
    rw [hreading.continues]
    exact hends.ends after

/-! ## Responses that are reported -/

/-- The parser has completed a response on the bytes it was given. -/
def CompletedResponse (parser : ResponseParser S) (read : Option (ReadEnd S)) : Prop :=
  ∃ e, read = some e ∧ (parser.parse parser.start e.received).2 = .parsingCompleted

/-- The bytes of these answers. -/
def chunks (answers : List ReadAnswer) : Str :=
  answers.flatMap fun a => if 0 < a.ret then a.data else []

/-- Answers that neither end the stream nor fail, with at most `max_retries` in a row that have no
bytes. -/
structure Undisturbed (answers : List ReadAnswer) : Prop where
  only : ∀ a ∈ answers, a.ret = errSslWantRead ∨ 0 < a.ret
  patient : ∀ before waits after, answers = before ++ waits ++ after →
    (∀ a ∈ waits, a.ret = errSslWantRead) → waits.length ≤ maxRetries

/-- The response breaks off behind a number of bytes that an `int` holds as a positive one: the
stream ends before the response does, or the parser finds an error. -/
def Interrupted (parser : ResponseParser S) (reads : List ReadAnswer) : Prop :=
  ∃ answers a after, reads = answers ++ a :: after ∧ Undisturbed answers ∧
    (parser.parse parser.start (chunks answers)).2 = .parsingIncompleted ∧
    ((a.ret = 0 ∧ 0 < toInt32 (chunks answers).length) ∨
      (0 < a.ret ∧ (parser.parse parser.start (chunks answers ++ a.data)).2 = .parsingError ∧
        0 < toInt32 (chunks answers ++ a.data).length))

theorem chunks_concat (answers : List ReadAnswer) (a : ReadAnswer) :
    chunks (answers ++ [a]) = chunks answers ++ if 0 < a.ret then a.data else [] := by
  simp only [chunks]
  rw [List.flatMap_append, List.flatMap_singleton]

theorem toInt32_add_chunk (received : Str) {a : ReadAnswer} (hsome : 0 < a.ret) :
    toInt32 (toInt32 received.length + a.ret) = toInt32 (received ++ a.data).length := by
  have hlength := a.length_eq (Int.le_of_lt hsome)
  simp only [toInt32]
  rw [Int.bmod_add_bmod, List.length_append, Int.natCast_add, hlength]

/-- What the loop holds while it is reading, in terms of the answers. -/
theorem Reading.spec {answers : List ReadAnswer} {retries : Nat} {readSize : Int} {s : S}
    {received : Str} (h : Reading parser answers retries readSize s received) :
    received = chunks answers ∧ readSize = toInt32 (chunks answers).length := by
  induction h with
  | start => exact ⟨rfl, rfl⟩
  | @wait answers retries readSize s received a before wants few ih =>
      have hno : ¬ 0 < a.ret := by
        rw [wants]
        decide
      rw [chunks_concat, if_neg hno, List.append_nil]
      exact ih
  | @chunk answers retries readSize s s' received a before hsome parsed ih =>
      rw [chunks_concat, if_pos hsome, ih.1, ih.2]
      exact ⟨rfl, toInt32_add_chunk _ hsome⟩

/-- The retries count the answers without bytes at the end, and are never more than `max_retries`.
-/
theorem Reading.undisturbed {answers : List ReadAnswer} {retries : Nat} {readSize : Int} {s : S}
    {received : Str} (h : Reading parser answers retries readSize s received) :
    Undisturbed answers ∧ retries ≤ maxRetries ∧
      WaitsAtEnd (fun a => a.ret = errSslWantRead) retries answers := by
  induction h with
  | start => exact ⟨⟨by simp, patient_nil⟩, Nat.zero_le _, waitsAtEnd_nil⟩
  | @wait answers retries readSize s received a before wants few ih =>
      obtain ⟨⟨honly, hpatient⟩, hmax, hwaits⟩ := ih
      -- a run of waits at the end is one longer than before
      have hend := WaitsAtEnd.concat hwaits a
      refine ⟨⟨?_, Patient.concat hpatient (hend.mono few)⟩, few, hend⟩
      intro b hb
      rcases List.mem_append.1 hb with hb | hb
      · exact honly b hb
      · rw [List.mem_singleton.1 hb]
        exact Or.inl wants
  | @chunk answers retries readSize s s' received a before hsome parsed ih =>
      obtain ⟨⟨honly, hpatient⟩, hmax, hwaits⟩ := ih
      -- the last answer has bytes, so no run of waits reaches the end
      have hother := ReadAnswer.ret_ne_wantRead hsome
      refine ⟨⟨?_, Patient.concat_other hpatient hother⟩, Nat.zero_le _, waitsAtEnd_other hother⟩
      intro b hb
      rcases List.mem_append.1 hb with hb | hb
      · exact honly b hb
      · rw [List.mem_singleton.1 hb]
        exact Or.inr hsome

/-- Over undisturbed answers that do not end the response, the loop is reading. -/
theorem Undisturbed.reading {answers : List ReadAnswer} (h : Undisturbed answers)
    (hparse : (parser.parse parser.start (chunks answers)).2 = .parsingIncompleted) :
    ∃ waits before readSize s received, answers = before ++ waits ∧
      (∀ a ∈ waits, a.ret = errSslWantRead) ∧
      Reading parser answers waits.length readSize s received := by
  induction answers using List.reverseRecOn with
  | nil => exact ⟨[], [], _, _, _, rfl, by simp, .start⟩
  | append_singleton answers a ih =>
      have hprefix : Undisturbed answers := by
        exact ⟨fun b hb => h.only b (List.mem_append_left _ hb), Patient.of_append h.patient⟩
      rw [chunks_concat] at hparse
      obtain ⟨waits, before, readSize, s, received, hanswers, hwaits, hreading⟩ :=
        ih hprefix (parser.parse_of_append hparse)
      -- the last answer is a wait, which is counted, or bytes, which set the counter back
      rcases h.only a (by simp) with hwant | hsome
      · have hruns : ∀ b ∈ waits ++ [a], b.ret = errSslWantRead := by
          intro b hb
          rcases List.mem_append.1 hb with hb | hb
          · exact hwaits b hb
          · rw [List.mem_singleton.1 hb]
            exact hwant
        have heq : answers ++ [a] = before ++ (waits ++ [a]) := by
          rw [hanswers, List.append_assoc]
        have hfew := h.patient before (waits ++ [a]) [] (by rw [heq, List.append_nil]) hruns
        rw [List.length_append, List.length_singleton] at hfew
        refine ⟨waits ++ [a], before, readSize, s, received, heq, hruns, ?_⟩
        rw [List.length_append, List.length_singleton]
        exact .wait hreading hwant hfew
      · rw [if_pos hsome, ← hreading.spec.1, parser.parse_append hreading.parsed] at hparse
        exact ⟨[], answers ++ [a], _, _, _, by simp, by simp,
          .chunk hreading hsome (Prod.ext rfl hparse)⟩

/-- Every end of the loop with a positive return value has a complete response, if the response does
not break off, and not otherwise. -/
theorem read_completed_iff (reads : List ReadAnswer) :
    (∀ e, httpRead parser reads = some e → 0 < e.ret → CompletedResponse parser (some e)) ↔
      ¬ Interrupted parser reads := by
  constructor
  · rintro h ⟨answers, a, after, hreads, hquiet, hparse, hbreak⟩
    obtain ⟨waits, _, readSize, s, received, -, -, hreading⟩ := hquiet.reading hparse
    obtain ⟨hreceived, hsize⟩ := hreading.spec
    -- the stream ends early, or the parser gives up; both times the number of bytes is returned
    rcases hbreak with ⟨hzero, hpos⟩ | ⟨hsome, herror, hpos⟩
    · rw [← hsize] at hpos
      have hend := httpRead_eq_some_iff.2
        ⟨answers, a, after, _, _, _, _, hreads, hreading, .endOfStream hzero⟩
      obtain ⟨e, he, hcompleted⟩ := h _ hend hpos
      cases he
      rw [hreading.parsed] at hcompleted
      cases hcompleted
    · rw [← hreceived, parser.parse_append hreading.parsed] at herror
      rw [← toInt32_add_chunk _ hsome, ← hsize] at hpos
      have hend := httpRead_eq_some_iff.2 ⟨answers, a, after, _, _, _, _, hreads, hreading,
        .parsed hsome rfl (by rw [herror]; decide)⟩
      obtain ⟨e, he, hcompleted⟩ := h _ hend hpos
      cases he
      rw [parser.parse_append hreading.parsed, herror] at hcompleted
      cases hcompleted
  · intro hnot e hread hpos
    obtain ⟨answers, a, after, retries, readSize, s, received, hreads, hreading, hends⟩ :=
      httpRead_eq_some_iff.1 hread
    obtain ⟨hreceived, hsize⟩ := hreading.spec
    have hquiet := hreading.undisturbed.1
    have hparse : (parser.parse parser.start (chunks answers)).2 = .parsingIncompleted := by
      rw [← hreceived, hreading.parsed]
    cases hends with
    | retries wants many => exact absurd (show (0 : Int) < -1 from hpos) (by decide)
    | failed negative other => exact absurd hpos (Int.not_lt.2 (Int.le_of_lt negative))
    | endOfStream zero =>
        have hsome : 0 < readSize := hpos
        rw [hsize] at hsome
        exact absurd ⟨answers, a, after, hreads, hquiet, hparse, Or.inl ⟨zero, hsome⟩⟩ hnot
    | @parsed s' result hsome parses done =>
        refine ⟨_, rfl, ?_⟩
        rw [parser.parse_append hreading.parsed, parses]
        cases result with
        | parsingCompleted => rfl
        | parsingIncompleted => exact absurd rfl done
        | parsingError =>
            refine absurd ⟨answers, a, after, hreads, hquiet, hparse, Or.inr ⟨hsome, ?_, ?_⟩⟩ hnot
            · rw [← hreceived, parser.parse_append hreading.parsed, parses]
            · rw [← toInt32_add_chunk _ hsome, ← hsize]
              exact hpos

/-- The exchange gets as far as reading: connected, the handshake done, the request written. -/
def SendsRequest (io : ExchangeIo) (isHttps : Bool) (len : Nat) : Prop :=
  io.connect = 0 ∧ (isHttps = true → tlsConnect io = some none) ∧
    ∃ ret, httpWrite io.writes len = some ret ∧ 0 < ret

/-- The end of `DoRequest` is a success exactly where the request is written and the loop ends with
a positive number. -/
theorem writeAndRead_ok_iff {io : ExchangeIo} {len : Nat} {result : HttpResult}
    {read : Option (ReadEnd S)} :
    (writeAndRead io parser len = .finished result read ∧ result.code = .ok) ↔
      (∃ ret, httpWrite io.writes len = some ret ∧ 0 < ret) ∧ result = ⟨.ok, str "Success"⟩ ∧
        ∃ e, read = some e ∧ httpRead parser io.reads = some e ∧ 0 < e.ret := by
  simp only [writeAndRead]
  cases hwrite : httpWrite io.writes len with
  | none => simp
  | some ret =>
      by_cases hret : ret ≤ 0
      · simp only [if_pos hret, ExchangeEnd.finished.injEq]
        constructor
        · rintro ⟨⟨rfl, -⟩, hcode⟩
          -- a write that fails has an error code
          cases hcode
        · rintro ⟨⟨ret', hret', hpos⟩, -⟩
          cases hret'
          omega
      · simp only [if_neg hret]
        cases hread : httpRead parser io.reads with
        | none => simp
        | some e =>
            by_cases he : e.ret ≤ 0
            · simp only [if_pos he, ExchangeEnd.finished.injEq]
              constructor
              · rintro ⟨⟨rfl, -⟩, hcode⟩
                -- and so has a read that fails
                cases hcode
              · rintro ⟨-, -, e', -, he', hpos⟩
                cases he'
                omega
            · simp only [if_neg he, ExchangeEnd.finished.injEq]
              constructor
              · rintro ⟨⟨rfl, rfl⟩, -⟩
                exact ⟨⟨ret, rfl, by omega⟩, rfl, e, rfl, rfl, by omega⟩
              · rintro ⟨-, rfl, e', rfl, he', -⟩
                cases he'
                exact ⟨⟨rfl, rfl⟩, rfl⟩

/-- `DoRequest` reports success exactly where the request is sent and the loop ends with a positive
number. -/
theorem doRequest_ok_iff {io : ExchangeIo} {url : HttpUrl} {isHttps : Bool} {request : Str}
    {result : HttpResult} {read : Option (ReadEnd S)} :
    ((doRequest io parser url isHttps request).result = .finished result read ∧
        result.code = .ok) ↔
      SendsRequest io isHttps request.length ∧ result = ⟨.ok, str "Success"⟩ ∧
        ∃ e, read = some e ∧ httpRead parser io.reads = some e ∧ 0 < e.ret := by
  simp only [doRequest, SendsRequest]
  by_cases hconnect : io.connect ≠ 0
  · rw [if_pos hconnect]
    constructor
    · rintro ⟨h, hcode⟩
      cases h
      cases hcode
    · rintro ⟨⟨hzero, -⟩, -⟩
      exact absurd hzero hconnect
  rw [if_neg hconnect]
  rw [not_not] at hconnect
  have htls : (if isHttps = true then tlsConnect io else some none) = some none ↔
      (isHttps = true → tlsConnect io = some none) := by
    cases isHttps with
    | false => simp
    | true => simp
  -- the TLS part waits, has failed, or is done
  rcases hstage : (if isHttps = true then tlsConnect io else some none) with - | (- | error)
  · constructor
    · rintro ⟨h, -⟩
      cases h
    · rintro ⟨⟨-, h, -⟩, -⟩
      rw [htls.2 h] at hstage
      cases hstage
  · rw [writeAndRead_ok_iff]
    constructor
    · rintro ⟨hwrite, hresult⟩
      exact ⟨⟨hconnect, htls.1 hstage, hwrite⟩, hresult⟩
    · rintro ⟨⟨-, -, hwrite⟩, hresult⟩
      exact ⟨hwrite, hresult⟩
  · constructor
    · rintro ⟨h, hcode⟩
      cases h
      cases isHttps with
      | false => cases hstage
      | true => exact absurd hcode (tlsConnect_error hstage)
    · rintro ⟨⟨-, h, -⟩, -⟩
      rw [htls.2 h] at hstage
      cases hstage

/-- `SendRequest` hands a response to its caller exactly where `DoRequest` reports success. -/
theorem sendRequest_response_iff {c : Client} {ndebug : Bool} {io : ExchangeIo}
    {method path : Str} {headers : TypeHeaders} {params : List (Str × Str)}
    {body contentType : Str} {read : Option (ReadEnd S)} :
    (∃ error, (c.sendRequest ndebug io parser method path headers params body contentType).result =
        .response read error) ↔
      path ≠ [] ∧ ∃ url isHttps request result,
        c.prepared ndebug io method path headers params body contentType =
          .ready url isHttps request ∧
        (doRequest io parser url isHttps request).result = .finished result read ∧
        result.code = .ok := by
  simp only [Client.sendRequest]
  cases path with
  | nil => simp
  | cons first rest =>
      simp only [List.isEmpty_cons, Bool.false_eq_true, if_false, Client.exchange_eq]
      rcases hprepared : c.prepared ndebug io method (first :: rest) headers params body contentType
        with - | result | ⟨url, isHttps, request⟩
      · -- a request that is not made, or fails, has no response
        simp [Prepared.execute]
      · have hcode := Client.prepared_failed hprepared
        simp [Prepared.execute, hcode]
      · simp only [Prepared.execute]
        constructor
        · rintro ⟨error, h⟩
          refine ⟨by simp, url, isHttps, request, ?_⟩
          -- a result that is no success is an error of the call
          cases hdone : (doRequest io parser url isHttps request).result with
          | aborted =>
              rw [hdone] at h
              cases h
          | waiting =>
              rw [hdone] at h
              cases h
          | finished result read' =>
              simp only [hdone] at h
              by_cases hcode : result.code ≠ .ok
              · rw [if_pos hcode] at h
                cases h
              · rw [if_neg hcode] at h
                cases h
                exact ⟨result, rfl, rfl, not_not.1 hcode⟩
        · rintro ⟨-, url', isHttps', request', result, heq, hdone, hcode⟩
          cases heq
          refine ⟨⟨.success, str "OK", str "Success"⟩, ?_⟩
          simp only [hdone]
          rw [if_neg (not_not.2 hcode)]

/-- **When only complete responses are reported.** `DoRequest` reports success without a complete
response exactly where it gets to reading and the response breaks off; and so does every call of
`SendRequest`, with the exchange of the request it has prepared. -/
theorem reported_response_iff (parser : ResponseParser S) (io : ExchangeIo) :
    (∀ (url : HttpUrl) (isHttps : Bool) (request : Str),
      (∀ result read, (doRequest io parser url isHttps request).result = .finished result read →
        result.code = .ok → CompletedResponse parser read) ↔
      (SendsRequest io isHttps request.length → ¬ Interrupted parser io.reads)) ∧
    (∀ (c : Client) (ndebug : Bool) (method path : Str) (headers : TypeHeaders)
      (params : List (Str × Str)) (body contentType : Str),
      (∀ read error,
        (c.sendRequest ndebug io parser method path headers params body contentType).result =
          .response read error → CompletedResponse parser read) ↔
      (path ≠ [] → ∀ url isHttps request,
        c.prepared ndebug io method path headers params body contentType =
          .ready url isHttps request →
        SendsRequest io isHttps request.length → ¬ Interrupted parser io.reads)) := by
  -- one exchange, from the reads alone
  have hexchange : ∀ (url : HttpUrl) (isHttps : Bool) (request : Str),
      (∀ result read, (doRequest io parser url isHttps request).result = .finished result read →
        result.code = .ok → CompletedResponse parser read) ↔
      (SendsRequest io isHttps request.length → ¬ Interrupted parser io.reads) := by
    intro url isHttps request
    rw [← read_completed_iff]
    constructor
    · intro h hsends e hread hpos
      obtain ⟨hdone, hcode⟩ := doRequest_ok_iff.2 ⟨hsends, rfl, e, rfl, hread, hpos⟩
      exact h _ _ hdone hcode
    · intro h result read hdone hcode
      obtain ⟨hsends, -, e, rfl, hread, hpos⟩ := doRequest_ok_iff.1 ⟨hdone, hcode⟩
      exact h hsends e hread hpos
  refine ⟨hexchange, ?_⟩
  -- a call is the exchange of the request it prepares
  intro c ndebug method path headers params body contentType
  constructor
  · intro h hpath url isHttps request hready
    refine (hexchange url isHttps request).1 ?_
    intro result read hdone hcode
    obtain ⟨error, hresponse⟩ := sendRequest_response_iff.2
      ⟨hpath, url, isHttps, request, result, hready, hdone, hcode⟩
    exact h read error hresponse
  · intro h read error hresponse
    obtain ⟨hpath, url, isHttps, request, result, hready, hdone, hcode⟩ :=
      sendRequest_response_iff.1 ⟨error, hresponse⟩
    exact (hexchange url isHttps request).2 (h hpath url isHttps request hready) result read hdone
      hcode

/-! ## A response that is cut off -/

/-- Two bytes arrive, and the server closes the connection. -/
def cutOffIo : ExchangeIo :=
  .succeeding [1000]
    [⟨2, str "HT", by decide, by decide⟩, ⟨0, [], length_eq_nil, dataBufSize_nonneg⟩]

/-- `GET /` of the client for `http://h`: a response of three bytes is cut off behind two, and is
handed to the caller as a successful one. -/
theorem cut_off_response_reported :
    (Client.sendRequest ⟨str "http://h", -1, []⟩ true cutOffIo (.ofLength 3) (str "GET") (str "/")
        ⟨[], by decide⟩ [] [] []).result =
      .response (some ⟨2, 2, str "HT"⟩) ⟨.success, str "OK", str "Success"⟩ ∧
    ¬ CompletedResponse (.ofLength 3) (some ⟨2, 2, str "HT"⟩) := by
  refine ⟨rfl, ?_⟩
  rintro ⟨e, he, hcompleted⟩
  cases he
  exact absurd hcompleted (by decide)

end Ssgx.Http
