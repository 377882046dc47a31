import Mathlib.Data.List.Find
import Ssgx.Http.HeaderMap
import Ssgx.Http.ResponseBodies

/-!
# Responses from the wire to the caller

`http_read` with the response parser, and the `Response` that `SendRequest` makes of what was
parsed. Whatever the server sends, the headers that reach the caller have tokens for names and no
control character in their values (`headers_delivered`); and a message that arrives in any reads is
handed over with its status, its headers and its body (`sendRequest_delivers`).
-/

set_option autoImplicit false

namespace Ssgx.Http

open Ssgx.Support

/-- The response that `SendRequest` hands over. -/
def ParsedResponse.toResponse (resp : ParsedResponse) : Response :=
  runFrom Response.callSetHeader
    ((Response.fresh.setStatusCode resp.statusCode).setBody resp.content)
    (resp.headers.map fun h => .text h.name h.value)

/-! ## What holds of every parser -/

section Runs

variable {S : Type} {parser : ResponseParser S}

/-- What every byte keeps, a text keeps. -/
theorem ResponseParser.parse_keeps {Inv : S → Prop}
    (hstep : ∀ s c, Inv s → Inv (parser.consume s c).1) {s : S} (hinv : Inv s) (text : Str) :
    Inv (parser.parse s text).1 := by
  induction text generalizing s with
  | nil => exact hinv
  | cons c text ih =>
      have hnext := hstep s c hinv
      rcases hc : parser.consume s c with ⟨s', result⟩
      rw [hc] at hnext
      cases result with
      | parsingCompleted => simpa only [ResponseParser.parse, hc] using hnext
      | parsingError => simpa only [ResponseParser.parse, hc] using hnext
      | parsingIncompleted =>
          simp only [ResponseParser.parse, hc]
          exact ih hnext

/-- The loop ends with the state that the bytes it was given leave. -/
theorem httpRead_parsed {reads : List ReadAnswer} {e : ReadEnd S}
    (h : httpRead parser reads = some e) :
    e.parsed = (parser.parse parser.start e.received).1 := by
  obtain ⟨answers, a, after, retries, readSize, s, received, -, hreading, hends⟩ :=
    httpRead_eq_some_iff.1 h
  have hparsed := hreading.parsed
  cases hends with
  | retries wants many => rw [hparsed]
  | failed negative other => rw [hparsed]
  | endOfStream zero => rw [hparsed]
  | parsed hsome parses done => rw [parser.parse_append hparsed, parses]

end Runs

namespace HttpResponseParser

/-! ## The headers -/

/-- **What a byte does to the headers**: nothing, or it is the first or another byte of a name, or
another byte of a value. -/
theorem headers_consume (heap : Nat) (p : HttpResponseParser) (c : Char) :
    (p.consume heap c).1.resp.headers = p.resp.headers ∨
    (isNameChar c = true ∧
      ((p.consume heap c).1.resp.headers = p.resp.headers ++ [⟨[c], []⟩] ∨
        (p.consume heap c).1.resp.headers = (p.resp.pushName c).headers)) ∨
    (isControl c = false ∧ (p.consume heap c).1.resp.headers = (p.resp.pushValue c).headers) := by
  rcases hstate : p.state
  case headerLineStart =>
    simp only [consume, hstate]
    by_cases hname : (!isChar c || isControl c || isSpecial c) = true
    · rw [if_pos hname]
      split_ifs
      all_goals exact .inl rfl
    · rw [if_neg hname]
      split_ifs
      · exact .inl rfl
      · exact .inl rfl
      · exact .inr (.inl ⟨Bool.of_not_eq_false (mt (isNameChar_iff c).2 hname), .inl rfl⟩)
  case headerName =>
    simp only [consume, hstate]
    by_cases hname : (!isChar c || isControl c || isSpecial c) = true
    · rw [if_pos hname]
      split_ifs
      all_goals exact .inl rfl
    · rw [if_neg hname]
      split_ifs
      · exact .inl rfl
      · exact .inr (.inl ⟨Bool.of_not_eq_false (mt (isNameChar_iff c).2 hname), .inr rfl⟩)
  case headerLws =>
    simp only [consume, hstate]
    split_ifs with hcr hblank hcontrol
    · exact .inl rfl
    · exact .inl rfl
    · exact .inl rfl
    · exact .inr (.inr ⟨by simpa using hcontrol, rfl⟩)
  case headerValue =>
    simp only [consume, hstate]
    split_ifs with hcr hcontrol
    · left
      simp only [endHeader]
      split
      · rfl
      · split_ifs
        all_goals rfl
    · exact .inl rfl
    · exact .inr (.inr ⟨by simpa using hcontrol, rfl⟩)
  case expectingNewline3 =>
    left
    simp only [consume, hstate, endHeaders]
    obtain ⟨keepAlive, hkeep⟩ := p.resp.takeKeepAlive_eq
    rw [hkeep]
    split_ifs
    all_goals rfl
  -- every other state leaves the headers
  all_goals
    simp only [consume, hstate]
    left
    try split_ifs
    all_goals rfl

/-- The names are tokens, and the values have no control character. -/
def Sound (p : HttpResponseParser) : Prop :=
  ∀ h ∈ p.resp.headers, IsName h.name ∧ Clean h.value

theorem forall_modifyLast {α : Type} {P : α → Prop} {f : α → α} (hf : ∀ a, P a → P (f a))
    {l : List α} (h : ∀ a ∈ l, P a) : ∀ a ∈ l.modifyLast f, P a := by
  rcases List.eq_nil_or_concat l with rfl | ⟨front, last, rfl⟩
  · exact h
  · rw [List.concat_eq_append] at h ⊢
    rw [List.modifyLast_concat]
    intro a ha
    rcases List.mem_append.1 ha with ha | ha
    · exact h a (List.mem_append_left _ ha)
    · rw [List.mem_singleton.1 ha]
      exact hf last (h last (by simp))

/-- Every byte keeps the headers sound, whether it belongs there or not. -/
theorem sound_consume (heap : Nat) (p : HttpResponseParser) (c : Char) (h : p.Sound) :
    (p.consume heap c).1.Sound := by
  intro item hitem
  rcases headers_consume heap p c with heq | ⟨hname, heq | heq⟩ | ⟨hclean, heq⟩
  · rw [heq] at hitem
    exact h item hitem
  · rw [heq] at hitem
    rcases List.mem_append.1 hitem with hitem | hitem
    · exact h item hitem
    · rw [List.mem_singleton.1 hitem]
      refine ⟨⟨List.cons_ne_nil _ _, ?_⟩, fun _ hc => absurd hc List.not_mem_nil⟩
      exact List.forall_mem_singleton.2 hname
  · rw [heq] at hitem
    refine forall_modifyLast (fun other hother => ?_) h item hitem
    obtain ⟨⟨hne, hall⟩, hvalue⟩ := hother
    refine ⟨⟨by simp, ?_⟩, hvalue⟩
    exact List.forall_mem_append.2 ⟨hall, List.forall_mem_singleton.2 hname⟩
  · rw [heq] at hitem
    refine forall_modifyLast (fun other hother => ?_) h item hitem
    exact ⟨hother.1, List.forall_mem_append.2 ⟨hother.2, List.forall_mem_singleton.2 hclean⟩⟩

/-- Whatever the bytes are, the headers are sound. -/
theorem sound_parse (heap : Nat) (text : Str) :
    ((parser heap).parse (parser heap).start text).1.Sound :=
  ResponseParser.parse_keeps (sound_consume heap) (fun _ h => absurd h List.not_mem_nil) text

end HttpResponseParser

/-! ## The headers of the caller -/

/-- A text without control characters passes the check of `SetHeader`. -/
theorem hasCRLF_of_clean {text : Str} (h : Clean text) : hasCRLF text = false := by
  induction text with
  | nil => rfl
  | cons c rest ih =>
      obtain ⟨hc, hrest⟩ := List.forall_mem_cons.1 h
      have hline : ¬ (c = '\r' ∨ c = '\n') := by
        rintro (rfl | rfl)
        · cases hc
        · cases hc
      rw [hasCRLF, if_neg hline, ih hrest, ite_self]

theorem clean_of_name {text : Str} (h : IsName text) : Clean text := by
  intro c hc
  have hname := h.2 c hc
  simp only [isNameChar, Bool.and_eq_true, Bool.not_eq_true'] at hname
  exact hname.1.2

/-- Each header of the response that is handed over is the first of its name. -/
theorem find_toResponse {p : HttpResponseParser} (hsound : p.Sound) (key : Str) :
    p.resp.toResponse.headers.find key =
      (p.resp.headers.find? fun item => equalNoCase item.name key).map HeaderItem.value := by
  rw [ParsedResponse.toResponse, Response.headers_run, TypeHeaders.find_run, storedFirst,
    List.find?_map, Option.map_map]
  have hnone : (((Response.fresh.setStatusCode p.resp.statusCode).setBody
      p.resp.content).headers.find key) = none := rfl
  rw [hnone, Option.none_or]
  -- the check of `SetHeader` passes for every header
  have hcheck : ∀ item ∈ p.resp.headers,
      ((fun call => headerPasses call.item && decide (lower call.item.1 = lower key)) ∘
        fun item => HeaderCall.text item.name item.value) item = equalNoCase item.name key := by
    intro item hitem
    obtain ⟨hname, hvalue⟩ := hsound item hitem
    have hpasses : headerPasses (item.name, item.value) = true :=
      headerPasses_iff.2 ⟨hasCRLF_of_clean (clean_of_name hname), hasCRLF_of_clean hvalue⟩
    simp only [Function.comp, HeaderCall.item, hpasses, Bool.true_and, equalNoCase]
    rfl
  rw [List.find?_congr hcheck]
  rfl

/-- **The headers that reach the caller.** Whatever the server sends and however its response ends,
every header of a response that `http_read` leaves has a token for its name and no control character
in its value; and each header of the response that is handed over is the first of its name. -/
theorem headers_delivered {heap : Nat} {reads : List ReadAnswer} {e : ReadEnd HttpResponseParser}
    (h : httpRead (HttpResponseParser.parser heap) reads = some e) :
    (∀ item ∈ e.parsed.resp.headers, IsName item.name ∧ Clean item.value) ∧
    ∀ key, e.parsed.resp.toResponse.headers.find key =
      (e.parsed.resp.headers.find? fun item => equalNoCase item.name key).map HeaderItem.value := by
  rw [httpRead_parsed h]
  have hsound := HttpResponseParser.sound_parse heap e.received
  exact ⟨hsound, find_toResponse hsound⟩

/-! ## Messages -/

/-- A message is read to its end, and no further. -/
theorem message_finishesAt {heap : Nat} {m : WireMessage} (hm : m.Accepted heap) (more : Str) :
    FinishesAt (HttpResponseParser.parser heap) (m.wire ++ more) m.wire.length ∧
    ∃ p, (HttpResponseParser.parser heap).parse (HttpResponseParser.parser heap).start
      (m.wire ++ more) = (p, .parsingCompleted) ∧ p.resp = m.response := by
  obtain ⟨front, c, p, htext, hopen, hdone, hresp⟩ :=
    (completes_iff_parse _ _).1 (HttpResponseParser.completes_wire hm more)
  have hwire : m.wire = front ++ [c] := by
    rw [List.append_cons] at htext
    exact List.append_cancel_right htext
  have hends : ((HttpResponseParser.parser heap).parse (HttpResponseParser.parser heap).start
      (front ++ [c])).2 ≠ .parsingIncompleted := by
    rw [hdone]
    exact ParseResult.noConfusion
  refine ⟨⟨front, c, more, htext, ?_, hopen, hends⟩, p, ?_, hresp⟩
  · rw [hwire, List.length_append, List.length_singleton]
  · rw [hwire, ResponseParser.parse_finished hends, hdone]

/-- **One message, one reading.** A text begins with one accepted message at most: two that begin it
have the same text behind them, and the same response. -/
theorem message_unique {heap : Nat} {m m' : WireMessage} (hm : m.Accepted heap)
    (hm' : m'.Accepted heap) {more more' : Str} (h : m.wire ++ more = m'.wire ++ more') :
    m.wire = m'.wire ∧ more = more' ∧ m.response = m'.response := by
  obtain ⟨hfinishes, p, hparse, hresp⟩ := message_finishesAt hm more
  obtain ⟨hfinishes', p', hparse', hresp'⟩ := message_finishesAt hm' more'
  rw [← h] at hfinishes' hparse'
  obtain ⟨hwire, hmore⟩ := List.append_inj h (hfinishes.unique hfinishes')
  rw [hparse] at hparse'
  cases hparse'
  exact ⟨hwire, hmore, hresp.symm.trans hresp'⟩

/-- A response is handed over as a success. -/
theorem sendRequest_response_success {S : Type} {parser : ResponseParser S} {c : Client}
    {ndebug : Bool} {io : ExchangeIo} {method path : Str} {headers : TypeHeaders}
    {params : List (Str × Str)} {body contentType : Str} {read : Option (ReadEnd S)}
    {error : ClientError}
    (h : (c.sendRequest ndebug io parser method path headers params body contentType).result =
      .response read error) : error = ⟨.success, str "OK", str "Success"⟩ := by
  simp only [Client.sendRequest] at h
  split at h
  · cases h
  · split at h
    · cases h
    · cases h
    · split at h
      · cases h
      · cases h
        rfl

/-- The status and the body of the response that is handed over. -/
theorem toResponse_parts (resp : ParsedResponse) :
    resp.toResponse.statusCode = resp.statusCode ∧ resp.toResponse.body = resp.content := by
  have hcall : ∀ (r : Response) call, (r.callSetHeader call).statusCode = r.statusCode ∧
      (r.callSetHeader call).body = r.body := by
    intro r call
    cases call with
    | text key val => exact ⟨rfl, rfl⟩
    | number key val => exact ⟨rfl, rfl⟩
  exact ⟨kept_runFrom (fun r call => (hcall r call).1) _ _,
    kept_runFrom (fun r call => (hcall r call).2) _ _⟩

/-- The response of a message as it is handed over. -/
theorem response_parts (m : WireMessage) :
    m.response.toResponse.statusCode = (ofDecimal m.status.code % 2 ^ 32 : Nat) ∧
      m.response.toResponse.body = m.body.content ∧ m.response.headers = m.block.headers := by
  obtain ⟨keepAlive, hkept⟩ :=
    { m.status.response with headers := m.block.headers }.takeKeepAlive_eq
  have hresponse : m.response =
      { m.status.response with
        headers := m.block.headers, content := m.body.content, keepAlive } := by
    rw [WireMessage.response, hkept]
  rw [hresponse]
  obtain ⟨hstatus, hbody⟩ := toResponse_parts { m.status.response with
    headers := m.block.headers, content := m.body.content, keepAlive }
  exact ⟨hstatus, hbody, rfl⟩

/-- What the caller of `SendRequest` gets of a message: its status, its body, and for every name the
value of its first header. -/
structure WireMessage.HandedOver (m : WireMessage) (r : Response) : Prop where
  status : r.statusCode = (ofDecimal m.status.code % 2 ^ 32 : Nat)
  body : r.body = m.body.content
  headers : ∀ key, r.headers.find key =
    (m.block.headers.find? fun item => equalNoCase item.name key).map HeaderItem.value

/-- A message that arrives in any reads, with the end of the stream behind them, is handed over. -/
theorem handedOver_of_splitting {heap : Nat} {m : WireMessage} (hm : m.Accepted heap) {more : Str}
    {answers : List ReadAnswer} (hsplit : Splitting (m.wire ++ more) answers)
    (hint : (m.wire ++ more).length < 2 ^ 31) {c : Client} {ndebug : Bool} {io : ExchangeIo}
    (hreads : io.reads = answers ++ [.endOfStream]) {method path : Str} (hpath : path ≠ [])
    {headers : TypeHeaders} {params : List (Str × Str)} {body contentType : Str} {url : HttpUrl}
    {isHttps : Bool} {request : Str}
    (hready : c.prepared ndebug io method path headers params body contentType =
      .ready url isHttps request)
    (hsends : SendsRequest io isHttps request.length) :
    ∃ e, (c.sendRequest ndebug io (HttpResponseParser.parser heap) method path headers params body
        contentType).result = .response (some e) ⟨.success, str "OK", str "Success"⟩ ∧
      m.HandedOver e.parsed.resp.toResponse := by
  obtain ⟨hfinishes, p, hparse, hresp⟩ := message_finishesAt hm more
  obtain ⟨e, hread, hparsed, -, hret⟩ := hsplit.read (HttpResponseParser.parser heap)
  have hsound := HttpResponseParser.sound_parse heap (m.wire ++ more)
  rw [hparse] at hparsed hret hsound
  -- the number of bytes is positive for an `int`
  have hpos : 0 < e.ret := by
    rcases hret with ⟨hopen, -⟩ | ⟨k, n, hk, hn, hret⟩
    · cases hopen
    · have hlow := hk.pos.1
      have hfinished := hn.finished
      have hwithin := hn.within
      rw [hret, toInt32, Int.bmod_eq_of_le (by omega) (by omega)]
      omega
  obtain ⟨hdone, hcode⟩ := doRequest_ok_iff.2 ⟨hsends, rfl, e, rfl, hreads ▸ hread, hpos⟩
  obtain ⟨error, hresult⟩ := sendRequest_response_iff.2
    ⟨hpath, url, isHttps, request, _, hready, hdone, hcode⟩
  have herror := sendRequest_response_success hresult
  rw [herror] at hresult
  obtain ⟨hstatus, hbody, hheaders⟩ := response_parts m
  have hfind := find_toResponse hsound
  rw [hresp, hheaders] at hfind
  refine ⟨e, hresult, ?_⟩
  rw [hparsed, hresp]
  exact ⟨hstatus, hbody, hfind⟩

/-- **A message is handed over.** A message that arrives in any reads, with the end of the stream
behind them, is handed to the caller of `SendRequest`, with its status, its body, and for every name
the value of its first header. -/
theorem sendRequest_delivers {heap : Nat} {m : WireMessage} (hm : m.Accepted heap) {more : Str}
    {answers : List ReadAnswer} (hsplit : Splitting (m.wire ++ more) answers)
    (hint : (m.wire ++ more).length < 2 ^ 31) {c : Client} {ndebug : Bool} {io : ExchangeIo}
    (hreads : io.reads = answers ++ [.endOfStream]) {method path : Str} (hpath : path ≠ [])
    {headers : TypeHeaders} {params : List (Str × Str)} {body contentType : Str} {url : HttpUrl}
    {isHttps : Bool} {request : Str}
    (hready : c.prepared ndebug io method path headers params body contentType =
      .ready url isHttps request)
    (hsends : SendsRequest io isHttps request.length) :
    ∃ e, (c.sendRequest ndebug io (HttpResponseParser.parser heap) method path headers params body
        contentType).result = .response (some e) ⟨.success, str "OK", str "Success"⟩ ∧
      e.parsed.resp.toResponse.statusCode = (ofDecimal m.status.code % 2 ^ 32 : Nat) ∧
      e.parsed.resp.toResponse.body = m.body.content ∧
      ∀ key, e.parsed.resp.toResponse.headers.find key =
        (m.block.headers.find? fun item => equalNoCase item.name key).map HeaderItem.value := by
  obtain ⟨e, hresult, hhanded⟩ := handedOver_of_splitting hm hsplit hint hreads hpath hready hsends
  exact ⟨e, hresult, hhanded.status, hhanded.body, hhanded.headers⟩

/-! ## A small response -/

theorem one_number : IsNumber (str "1") := ⟨by decide, by decide⟩

theorem ok_number : IsNumber (str "200") := ⟨by decide, by decide⟩

theorem ok_range : 100 ≤ ofDecimal (str "200") % 2 ^ 32 ∧ ofDecimal (str "200") % 2 ^ 32 ≤ 999 := by
  decide

theorem ok_reason : IsReason (str "OK") := ⟨rfl, List.all_eq_true.1 rfl⟩

theorem length_name : IsName (str "Content-Length") := ⟨by decide, List.all_eq_true.1 rfl⟩

theorem two_clean : Clean (str "2") := by
  intro c hc
  rw [List.mem_singleton.1 hc]
  rfl

/-- Two bytes with their length. -/
def okMessage : WireMessage where
  status := ⟨str "1", str "1", str "200", str "OK", one_number, one_number, ok_number, ok_range,
    ok_reason⟩
  lines := [.field (str "Content-Length") (str "2") length_name two_clean]
  body := .sized '\n' (str "hi")

theorem okMessage_accepted : okMessage.Accepted 100 := by
  refine ⟨⟨⟨?_, ?_⟩, trivial⟩, rfl, ?_, ?_⟩
  · intro h
    cases h
  · decide
  · decide
  · decide

/-- The bytes of two small responses, one behind the other, are one of them and the other. -/
theorem okMessage_unique :
    okMessage.wire = okMessage.wire ∧ okMessage.wire = okMessage.wire ∧
      okMessage.response = okMessage.response :=
  message_unique okMessage_accepted okMessage_accepted rfl

/-- The bytes arrive one by one. -/
def okIo : ExchangeIo :=
  .succeeding [1000] (singleReads okMessage.wire ++ [.endOfStream])

theorem okMessage_splitting : Splitting (okMessage.wire ++ []) (singleReads okMessage.wire) := by
  refine ⟨undisturbed_of_some (singleReads_some _), ?_⟩
  rw [chunks_singleReads, List.append_nil]

/-- `GET /` of the client for `http://h`. -/
theorem okMessage_delivered :
    ∃ e, (Client.sendRequest ⟨str "http://h", -1, []⟩ true okIo (HttpResponseParser.parser 100)
        (str "GET") (str "/") ⟨[], by decide⟩ [] [] []).result =
      .response (some e) ⟨.success, str "OK", str "Success"⟩ ∧
      e.parsed.resp.toResponse.statusCode = (ofDecimal okMessage.status.code % 2 ^ 32 : Nat) ∧
      e.parsed.resp.toResponse.body = okMessage.body.content ∧
      ∀ key, e.parsed.resp.toResponse.headers.find key =
        (okMessage.block.headers.find? fun item => equalNoCase item.name key).map
          HeaderItem.value :=
  sendRequest_delivers okMessage_accepted okMessage_splitting (by decide) rfl (by decide) rfl
    ⟨rfl, by decide, 1000, by decide, by decide⟩

/-- The headers of the small response. -/
theorem okMessage_headers :
    ∃ e, httpRead (HttpResponseParser.parser 100) (singleReads okMessage.wire ++ [.endOfStream]) =
        some e ∧
      (∀ item ∈ e.parsed.resp.headers, IsName item.name ∧ Clean item.value) ∧
      ∀ key, e.parsed.resp.toResponse.headers.find key =
        (e.parsed.resp.headers.find? fun item => equalNoCase item.name key).map
          HeaderItem.value := by
  obtain ⟨e, hread, -⟩ := okMessage_splitting.read (HttpResponseParser.parser 100)
  exact ⟨e, hread, headers_delivered hread⟩

end Ssgx.Http
