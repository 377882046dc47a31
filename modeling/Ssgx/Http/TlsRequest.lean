import Ssgx.Http.TlsExchange
import Ssgx.Http.UrlAborts

/-!
# What a request over TLS sends, and when

The results of the handshakes, the writes and the reads are streams (`Outcomes`), of which a call
has seen a first part. `https_request_iff` says for which requests the trace of every such part is
secure, and one of them ends with bytes on the session or with an error. The others are those whose
URL the parser does not return for, those whose random numbers fail, so that the destructor of the
context closes and frees what was not set up, and those whose handshake asks for another call
without end: of the loops of the client only the one of the handshake counts no retries.
-/

set_option autoImplicit false

namespace Ssgx.Http

open Ssgx.Support

variable {S : Type}

/-! ## Streams of results -/

/-- The results of all calls that a request may make: there is one for every handshake, every write
and every read. -/
structure Outcomes where
  rand : Bool
  drbgSeed : Int
  x509Parse : Int
  configDefaults : Int
  connect : Int
  sslSetup : Int
  setHostname : Int
  handshakes : Nat → Int
  writes : Nat → Int
  reads : Nat → ReadAnswer
  strerror : Int → Str

/-- What a request has seen of them after this many handshakes, writes and reads. -/
def Outcomes.first (o : Outcomes) (n : Nat) : ExchangeIo where
  rand := o.rand
  drbgSeed := o.drbgSeed
  x509Parse := o.x509Parse
  configDefaults := o.configDefaults
  connect := o.connect
  sslSetup := o.sslSetup
  setHostname := o.setHostname
  handshakes := (List.range n).map o.handshakes
  writes := (List.range n).map o.writes
  reads := (List.range n).map o.reads
  strerror := o.strerror

/-- Everything before the handshake succeeds, and every call of the handshake asks for another. -/
structure Outcomes.NeverShakesHands (o : Outcomes) (serverCa : Str) : Prop where
  rand : o.rand = true
  drbgSeed : o.drbgSeed = 0
  x509Parse : serverCa ≠ [] → o.x509Parse = 0
  configDefaults : o.configDefaults = 0
  connect : o.connect = 0
  sslSetup : o.sslSetup = 0
  setHostname : o.setHostname = 0
  handshakes : ∀ i, o.handshakes i = errSslWantRead ∨ o.handshakes i = errSslWantWrite

theorem handshake_none_iff (rets : List Int) :
    handshake rets = none ↔ ∀ ret ∈ rets, ret = errSslWantRead ∨ ret = errSslWantWrite := by
  induction rets with
  | nil => simp [handshake]
  | cons ret rest ih =>
      rw [handshake, List.forall_mem_cons]
      by_cases hdone : ret = 0
      · subst hdone
        simp [errSslWantRead, errSslWantWrite]
      rw [if_neg hdone]
      by_cases hother : ret ≠ errSslWantRead ∧ ret ≠ errSslWantWrite
      · rw [if_pos hother]
        simp [hother.1, hother.2]
      · rw [if_neg hother, ih]
        have hwant : ret = errSslWantRead ∨ ret = errSslWantWrite := by
          by_cases hread : ret = errSslWantRead
          · exact Or.inl hread
          · exact Or.inr (not_not.1 fun hwrite => hother ⟨hread, hwrite⟩)
        simp [hwant]

theorem initContext_none_iff (io : ExchangeIo) (serverCa : Str) :
    initContext io serverCa true = none ↔ io.rand = true ∧ io.drbgSeed = 0 ∧
      (serverCa ≠ [] → io.x509Parse = 0) ∧ io.configDefaults = 0 := by
  simp only [initContext, if_true]
  split_ifs with hrand hseed hparse hdefaults
  · simp [hrand]
  · simp [hseed]
  · simp [hparse.1, hparse.2]
  · simp [hdefaults]
  · refine iff_of_true rfl ⟨by simpa using hrand, not_not.1 hseed, fun hca => ?_,
      not_not.1 hdefaults⟩
    exact not_not.1 fun hne => hparse ⟨hca, hne⟩

theorem tlsConnect_none_iff (io : ExchangeIo) :
    tlsConnect io = none ↔
      io.sslSetup = 0 ∧ io.setHostname = 0 ∧ handshake io.handshakes = none := by
  simp only [tlsConnect]
  split_ifs with hsetup hname
  · simp [hsetup]
  · simp [hname]
  · rw [not_not.1 hsetup, not_not.1 hname]
    cases hret : handshake io.handshakes with
    | none => simp
    | some ret =>
        simp only
        split_ifs <;> simp

/-- A request waits for the handshake behind every first part of the results exactly where the
handshake never ends. -/
theorem Outcomes.waits_iff (o : Outcomes) (serverCa : Str) :
    (∀ n, (o.first n).WaitsForHandshake serverCa) ↔ o.NeverShakesHands serverCa := by
  constructor
  · intro h
    obtain ⟨hrand, hseed, hparse, hdefaults⟩ := (initContext_none_iff _ _).1 (h 0).init
    obtain ⟨hsetup, hname, -⟩ := (tlsConnect_none_iff _).1 (h 0).tls
    refine ⟨hrand, hseed, hparse, hdefaults, (h 0).connect, hsetup, hname, fun i => ?_⟩
    have hshakes := ((tlsConnect_none_iff _).1 (h (i + 1)).tls).2.2
    apply (handshake_none_iff _).1 hshakes
    exact List.mem_map.2 ⟨i, by simp, rfl⟩
  · intro h n
    refine ⟨(initContext_none_iff _ _).2 ⟨h.rand, h.drbgSeed, h.x509Parse, h.configDefaults⟩,
      h.connect, (tlsConnect_none_iff _).2 ⟨h.sslSetup, h.setHostname, ?_⟩⟩
    rw [handshake_none_iff]
    intro ret hmem
    obtain ⟨i, -, rfl⟩ := List.mem_map.1 hmem
    exact h.handshakes i

/-- Behind some of the results the request does not wait, unless the handshake never ends. -/
theorem Outcomes.exists_not_waits {o : Outcomes} {serverCa : Str}
    (h : ¬ o.NeverShakesHands serverCa) : ∃ n, ¬ (o.first n).WaitsForHandshake serverCa := by
  rwa [← o.waits_iff, not_forall] at h

/-! ## The request -/

/-- **What TLS promises of a request.** However many results its calls have seen, its trace is empty
or secure for the host of its URL, so that all its calls are defined. And behind some of them bytes
are on the session, or the request has returned an error and sent nothing. -/
structure KeepsToTls (c : Client) (ndebug : Bool) (o : Outcomes) (parser : ResponseParser S)
    (method path : Str) (headers : TypeHeaders) (params : List (Str × Str))
    (body contentType : Str) : Prop where
  secure : ∀ n,
    c.sendRequestTrace ndebug (o.first n) parser method path headers params body contentType = [] ∨
    ∃ url, parseUrl ndebug (c.urlText method path params) = some url ∧
      SecureTrace c.serverCa url.url.hostname
        (c.sendRequestTrace ndebug (o.first n) parser method path headers params body contentType)
  ends : ∃ n,
    (∃ bytes, .sslWrite bytes ∈
      c.sendRequestTrace ndebug (o.first n) parser method path headers params body contentType) ∨
    (∃ error, (c.sendRequest ndebug (o.first n) parser method path headers params body
        contentType).result = .failed error ∧ error.code ≠ .success) ∧
      NothingSent
        (c.sendRequestTrace ndebug (o.first n) parser method path headers params body contentType)

section Request

variable {c : Client} {ndebug : Bool} {io : ExchangeIo} {parser : ResponseParser S}
  {method path : Str} {headers : TypeHeaders} {params : List (Str × Str)} {body contentType : Str}
  {url : HttpUrl}

theorem mapErrorCode_ne_success {code : HttpError} (h : code ≠ .ok) :
    mapErrorCode code ≠ .success := by
  cases code with
  | ok => exact absurd rfl h
  | _ => simp [mapErrorCode]

theorem initRequest_length_pos (method : Str) (url : HttpUrl) (headers : List Str) (body : Str) :
    0 < (initRequest method url headers body).length := by
  simp only [initRequest, List.length_append, List.length_cons]
  omega

/-- A client for `https` reads a URL of that scheme. -/
theorem Client.urlText_https (hhost : str "https://" <+: lower c.host) (method path : Str)
    (params : List (Str × Str)) :
    ∃ rest, c.urlText method path params = str "https" ++ str "://" ++ rest := by
  obtain ⟨tail, htail⟩ := hhost
  simp only [Client.urlText, HttpClient.initUrl, HttpClient.make, ← htail]
  by_cases hport : c.port = -1
  · rw [if_pos hport, List.append_assoc]
    exact ⟨_, rfl⟩
  · rw [if_neg hport, List.append_assoc, List.append_assoc]
    exact ⟨_, rfl⟩

theorem HttpClient.executeRequestCalls_cases {c : HttpClient} {params : List Str}
    (method : Str) (headers : List Str) (body : Str) (parser : ResponseParser S)
    {r : Except (ExchangeEnd S) PUnit}
    (hparse : parseUrl ndebug (c.initUrl path params) = some url) (hvalid : url.valid = true)
    (hscheme : url.url.scheme = str "https") (hrand : io.rand = true)
    (hends : Call.EndsIn (c.openCalls io url) r) :
    (r = .ok ⟨⟩ ∧ Sent c.serverCa url.url.hostname
      (c.executeRequestCalls ndebug io parser method path headers params body []).2) ∨
    ∃ e, r = .error e ∧
      returned (c.executeRequestCalls ndebug io parser method path headers params body []).1 = e ∧
      Opening c.serverCa url.url.hostname
        (c.executeRequestCalls ndebug io parser method path headers params body []).2 := by
  have hhostname : nul ∉ url.url.hostname := (parseUrl_hostChars hparse).not_mem (by decide)
  have hsecure := openCalls_secure (S := S) c hhostname hrand [] opening_nil
  have hend := hends []
  rw [executeRequestCalls_eq hparse hvalid hscheme]
  rcases hopen : c.openCalls io url [] with ⟨res, trace⟩
  rw [hopen] at hsecure hend
  subst hend
  cases res with
  | error e =>
      have hbody := Call.bind_of_error (f := fun _ => writeAndReadCalls io parser true
        (initRequest method url headers body)) hopen
      refine Or.inr ⟨e, rfl, ?_, inContext_opening ?_⟩
      · rw [inContext, Call.atEnd_fst, hbody]
        rfl
      · rw [hbody]
        exact hsecure
  | ok u =>
      refine Or.inl ⟨rfl, inContext_sent ?_⟩
      rw [Call.bind_of_ok hopen]
      exact (writeAndReadCalls_secure io parser (initRequest_length_pos _ _ _ _)).world hsecure

/-- The URL of a client for `https` is read exactly where the parser does not abort in it. -/
theorem Client.urlText_reads_iff (hhost : str "https://" <+: lower c.host) :
    (∃ url, parseUrl ndebug (c.urlText method path params) = some url) ↔
      ¬ OpensAddress (restText (c.urlText method path params)) ∧
        (ndebug = false → ¬ BreaksInPort (restText (c.urlText method path params))) := by
  obtain ⟨rest, htext⟩ := Client.urlText_https hhost method path params
  have hrest : restText (str "https" ++ str "://" ++ rest) = rest := rfl
  rw [htext, hrest, parseUrl_isSome_iff, UrlParser.run_scheme (Or.inr rfl)]
  exact atAuthority_returns_iff ndebug (str "https") rest

/-- What `SendRequest` makes of the end of an exchange. -/
def clientEnd : ExchangeEnd S → ClientEnd S
  | .aborted => .aborted
  | .waiting => .waiting
  | .finished ret read =>
      if ret.code ≠ .ok then
        .failed ⟨mapErrorCode ret.code, mapErrorMessage (mapErrorCode ret.code), ret.msg⟩
      else .response read ⟨.success, str "OK", str "Success"⟩

/-- `SendRequest` with a path returns what the calls of `ExecuteRequest` return. -/
theorem Client.sendRequest_result (hpath : path ≠ []) :
    (c.sendRequest ndebug io parser method path headers params body contentType).result =
      clientEnd (returned ((HttpClient.make c.host c.port c.serverCa).executeRequestCalls ndebug io
        parser (sentMethod method) path (headerLines headers contentType)
        (sentParams method params) (sentBody method body) []).1) := by
  have hnonempty : path.isEmpty = false := List.isEmpty_eq_false_iff.2 hpath
  rw [executeRequestCalls_returned, HttpClient.executeRequest, ← Client.prepared_eq,
    ← Client.exchange_eq]
  simp only [Client.sendRequest, hnonempty, Bool.false_eq_true, if_false]
  rfl

theorem Client.sendRequestTrace_eq (hpath : path ≠ []) :
    c.sendRequestTrace ndebug io parser method path headers params body contentType =
      ((HttpClient.make c.host c.port c.serverCa).executeRequestCalls ndebug io parser
        (sentMethod method) path (headerLines headers contentType) (sentParams method params)
        (sentBody method body) []).2 := by
  have hnonempty : path.isEmpty = false := List.isEmpty_eq_false_iff.2 hpath
  simp only [Client.sendRequestTrace, hnonempty, Bool.false_eq_true, if_false]

/-- A URL that the parser aborts in ends the process without a call. -/
theorem Client.sendRequest_aborts (io : ExchangeIo) (parser : ResponseParser S)
    (headers : TypeHeaders) (body contentType : Str) (hpath : path ≠ [])
    (hparse : parseUrl ndebug (c.urlText method path params) = none) :
    (c.sendRequest ndebug io parser method path headers params body contentType).result =
      .aborted ∧
    c.sendRequestTrace ndebug io parser method path headers params body contentType = [] := by
  have hcalls : (HttpClient.make c.host c.port c.serverCa).executeRequestCalls ndebug io parser
      (sentMethod method) path (headerLines headers contentType) (sentParams method params)
      (sentBody method body) = pure .aborted := by
    simp only [HttpClient.executeRequestCalls]
    rw [show parseUrl ndebug ((HttpClient.make c.host c.port c.serverCa).initUrl path
      (sentParams method params)) = none from hparse]
  rw [Client.sendRequest_result hpath, Client.sendRequestTrace_eq hpath, hcalls]
  exact ⟨rfl, rfl⟩

/-- A URL that is not valid is refused without a call. -/
theorem Client.sendRequest_invalid (io : ExchangeIo) (parser : ResponseParser S)
    (headers : TypeHeaders) (body contentType : Str) (hpath : path ≠ [])
    (hparse : parseUrl ndebug (c.urlText method path params) = some url)
    (hinvalid : url.valid = false) :
    (∃ error, (c.sendRequest ndebug io parser method path headers params body
        contentType).result = .failed error ∧ error.code ≠ .success) ∧
    c.sendRequestTrace ndebug io parser method path headers params body contentType = [] := by
  rw [Client.sendRequest_result hpath, Client.sendRequestTrace_eq hpath,
    executeRequestCalls_invalid hparse hinvalid]
  have hcode : HttpError.invalidUrl ≠ .ok := by simp
  exact ⟨⟨_, rfl, mapErrorCode_ne_success hcode⟩, rfl⟩

section Valid

variable (io) (parser : ResponseParser S) (headers : TypeHeaders) (body contentType : Str)
  (hpath : path ≠ []) (hparse : parseUrl ndebug (c.urlText method path params) = some url)
  (hvalid : url.valid = true) (hscheme : url.url.scheme = str "https")

include hpath hparse hvalid hscheme

/-- Without random numbers the trace is the one of the destructor. -/
theorem Client.sendRequest_unset (hrand : io.rand = false) :
    c.sendRequestTrace ndebug io parser method path headers params body contentType =
      .netInit :: contextDestroyed true := by
  rw [Client.sendRequestTrace_eq hpath]
  exact executeRequestCalls_unset hparse hvalid hscheme hrand

variable (hrand : io.rand = true)

include hrand

/-- A request over `https`, by the end of its part up to the request. -/
theorem Client.sendRequest_cases {r : Except (ExchangeEnd S) PUnit}
    (hends : Call.EndsIn ((HttpClient.make c.host c.port c.serverCa).openCalls io url) r) :
    (r = .ok ⟨⟩ ∧ Sent c.serverCa url.url.hostname
      (c.sendRequestTrace ndebug io parser method path headers params body contentType)) ∨
    ∃ e, r = .error e ∧
      (c.sendRequest ndebug io parser method path headers params body contentType).result =
        clientEnd e ∧
      Opening c.serverCa url.url.hostname
        (c.sendRequestTrace ndebug io parser method path headers params body contentType) := by
  have hcases := HttpClient.executeRequestCalls_cases (sentMethod method)
    (headerLines headers contentType) (sentBody method body) parser hparse hvalid hscheme hrand
    hends
  rw [Client.sendRequest_result hpath, Client.sendRequestTrace_eq hpath]
  rcases hcases with ⟨hok, hsent⟩ | ⟨e, herror, hreturned, hopening⟩
  · exact Or.inl ⟨hok, hsent⟩
  · exact Or.inr ⟨e, herror, congrArg clientEnd hreturned, hopening⟩

/-- A request that waits for the handshake has sent nothing, and has not returned. -/
theorem Client.sendRequest_waits (hwaits : io.WaitsForHandshake c.serverCa) :
    (c.sendRequest ndebug io parser method path headers params body contentType).result =
      .waiting ∧
    Opening c.serverCa url.url.hostname
      (c.sendRequestTrace ndebug io parser method path headers params body contentType) := by
  rcases Client.sendRequest_cases io parser headers body contentType hpath hparse hvalid hscheme
    hrand (openCalls_waits url hwaits) with ⟨hok, -⟩ | ⟨e, herror, hresult, hopening⟩
  · cases hok
  · cases herror
    exact ⟨hresult, hopening⟩

/-- A request that does not wait for it has bytes on the session, or returns an error. -/
theorem Client.sendRequest_ends (hgoes : ¬ io.WaitsForHandshake c.serverCa) :
    Sent c.serverCa url.url.hostname
      (c.sendRequestTrace ndebug io parser method path headers params body contentType) ∨
    (∃ error, (c.sendRequest ndebug io parser method path headers params body
        contentType).result = .failed error ∧ error.code ≠ .success) ∧
      Opening c.serverCa url.url.hostname
        (c.sendRequestTrace ndebug io parser method path headers params body contentType) := by
  obtain ⟨r, hends, hr⟩ :=
    openCalls_ends (S := S) (HttpClient.make c.host c.port c.serverCa) url hgoes
  rcases Client.sendRequest_cases io parser headers body contentType hpath hparse hvalid hscheme
    hrand hends with ⟨-, hsent⟩ | ⟨e, herror, hresult, hopening⟩
  · exact Or.inl hsent
  · rw [herror] at hr
    rcases hr with hok | ⟨error, heq, hcode⟩
    · cases hok
    · cases heq
      refine Or.inr ⟨⟨⟨mapErrorCode error.code, mapErrorMessage (mapErrorCode error.code),
        error.msg⟩, ?_, mapErrorCode_ne_success hcode⟩, hopening⟩
      rw [hresult, clientEnd, if_pos hcode]

/-- Every part of a request over `https` is secure. -/
theorem Client.sendRequest_secure :
    SecureTrace c.serverCa url.url.hostname
      (c.sendRequestTrace ndebug io parser method path headers params body contentType) := by
  by_cases hwaits : io.WaitsForHandshake c.serverCa
  · exact (Client.sendRequest_waits io parser headers body contentType hpath hparse hvalid hscheme
      hrand hwaits).2.1
  · rcases Client.sendRequest_ends io parser headers body contentType hpath hparse hvalid hscheme
      hrand hwaits with hsent | ⟨-, hopening⟩
    · exact hsent.secure
    · exact hopening.1

end Valid

end Request

/-! ## When a request keeps to TLS -/

/-- An empty path is refused before the first call. -/
theorem keepsToTls_nil (c : Client) (ndebug : Bool) (o : Outcomes) (parser : ResponseParser S)
    (method : Str) (headers : TypeHeaders) (params : List (Str × Str)) (body contentType : Str) :
    KeepsToTls c ndebug o parser method [] headers params body contentType where
  secure _ := Or.inl rfl
  ends := ⟨0, Or.inr ⟨⟨⟨.invalidParam, str "Path must be provided.", []⟩, rfl, by simp⟩,
    nothingSent_nil⟩⟩

/-- A URL that is not valid is refused before the first call. -/
theorem keepsToTls_invalid {c : Client} {ndebug : Bool} (o : Outcomes) (parser : ResponseParser S)
    {method path : Str} (headers : TypeHeaders) {params : List (Str × Str)}
    (body contentType : Str) (hpath : path ≠ []) {url : HttpUrl}
    (hparse : parseUrl ndebug (c.urlText method path params) = some url)
    (hinvalid : url.valid = false) :
    KeepsToTls c ndebug o parser method path headers params body contentType where
  secure n := Or.inl (Client.sendRequest_invalid (o.first n) parser headers body contentType hpath
    hparse hinvalid).2
  ends := by
    obtain ⟨herror, htrace⟩ := Client.sendRequest_invalid (o.first 0) parser headers body
      contentType hpath hparse hinvalid
    refine ⟨0, Or.inr ⟨herror, ?_⟩⟩
    rw [htrace]
    exact nothingSent_nil

/-- **When a request over `https` keeps to TLS.** Its trace is secure, and it sends over the session
or returns an error, exactly where the path is empty, or the parser returns for its URL and, if that
is valid, there are random numbers and the handshake is not asked for again and again. -/
theorem https_request_iff (c : Client) (ndebug : Bool) (o : Outcomes) (parser : ResponseParser S)
    (method path : Str) (headers : TypeHeaders) (params : List (Str × Str))
    (body contentType : Str) (hhost : str "https://" <+: lower c.host) :
    KeepsToTls c ndebug o parser method path headers params body contentType ↔
      path = [] ∨
      (¬ OpensAddress (restText (c.urlText method path params)) ∧
        (ndebug = false → ¬ BreaksInPort (restText (c.urlText method path params)))) ∧
      ∀ url, parseUrl ndebug (c.urlText method path params) = some url → url.valid = true →
        o.rand = true ∧ ¬ o.NeverShakesHands c.serverCa := by
  by_cases hpath : path = []
  · subst hpath
    exact iff_of_true (keepsToTls_nil c ndebug o parser method headers params body contentType)
      (Or.inl rfl)
  rw [← Client.urlText_reads_iff hhost, or_iff_right hpath]
  obtain ⟨rest, htext⟩ := Client.urlText_https hhost method path params
  have hscheme : ∀ url, parseUrl ndebug (c.urlText method path params) = some url →
      url.valid = true → url.url.scheme = str "https" := by
    intro url hparse hvalid
    rw [htext] at hparse
    exact (parseUrl_target (Or.inr rfl) hparse hvalid).1
  constructor
  · rintro ⟨hsecure, n, hends⟩
    cases hparse : parseUrl ndebug (c.urlText method path params) with
    | none =>
        -- the process has aborted: nothing is sent, and no error returned
        obtain ⟨hresult, htrace⟩ := Client.sendRequest_aborts (o.first n) parser headers body
          contentType hpath hparse
        rw [hresult, htrace] at hends
        rcases hends with ⟨bytes, hmem⟩ | ⟨⟨error, herror, -⟩, -⟩
        · simp at hmem
        · cases herror
    | some url =>
        refine ⟨⟨url, rfl⟩, fun url' heq hvalid => ?_⟩
        cases heq
        have hhttps := hscheme url hparse hvalid
        have hrand : o.rand = true := by
          rw [← Bool.not_eq_false]
          intro hrand
          -- the destructor frees what was not set up
          have htrace := Client.sendRequest_unset (o.first 0) parser headers body contentType hpath
            hparse hvalid hhttps hrand
          have hfirst := hsecure 0
          rw [htrace] at hfirst
          rcases hfirst with hnil | ⟨url', -, hobeys⟩
          · cases hnil
          · exact not_secureTrace_unset _ _ hobeys
        refine ⟨hrand, fun hnever => ?_⟩
        obtain ⟨hresult, -, hnothing⟩ := Client.sendRequest_waits (o.first n) parser headers body
          contentType hpath hparse hvalid hhttps hrand ((o.waits_iff c.serverCa).2 hnever n)
        rw [hresult] at hends
        rcases hends with ⟨bytes, hmem⟩ | ⟨⟨error, herror, -⟩, -⟩
        · exact (hnothing bytes).1 hmem
        · cases herror
  · rintro ⟨⟨url, hparse⟩, hgood⟩
    cases hvalid : url.valid with
    | false => exact keepsToTls_invalid o parser headers body contentType hpath hparse hvalid
    | true =>
        have hhttps := hscheme url hparse hvalid
        obtain ⟨hrand, hshakes⟩ := hgood url hparse hvalid
        refine ⟨fun n => Or.inr ⟨url, hparse, ?_⟩, ?_⟩
        · exact Client.sendRequest_secure (o.first n) parser headers body contentType hpath hparse
            hvalid hhttps hrand
        · obtain ⟨n, hn⟩ := Outcomes.exists_not_waits hshakes
          refine ⟨n, ?_⟩
          rcases Client.sendRequest_ends (o.first n) parser headers body contentType hpath hparse
            hvalid hhttps hrand hn with hsent | ⟨herror, hopening⟩
          · exact Or.inl hsent.some
          · exact Or.inr ⟨herror, hopening.2⟩

/-- Every call succeeds, and nothing comes back. -/
def Outcomes.silent : Outcomes where
  rand := true
  drbgSeed := 0
  x509Parse := 0
  configDefaults := 0
  connect := 0
  sslSetup := 0
  setHostname := 0
  handshakes _ := 0
  writes _ := 1
  reads _ := ⟨0, [], by simp, by decide⟩
  strerror _ := []

/-- A request to `HTTPS://h/` keeps to TLS. -/
theorem https_request_iff_sample :
    KeepsToTls ⟨str "HTTPS://h", -1, []⟩ false .silent (ResponseParser.ofLength 1) (str "GET")
      (str "/") ⟨[], by simp⟩ [] [] [] := by
  have hhost : str "https://" <+: lower (str "HTTPS://h") := by decide
  have hread : ∃ url, parseUrl false
      (Client.urlText ⟨str "HTTPS://h", -1, []⟩ (str "GET") (str "/") []) = some url :=
    ⟨⟨true, urlWith (str "https") (str "h") [] (str "/") [] [] 0⟩, by decide⟩
  refine (https_request_iff ⟨str "HTTPS://h", -1, []⟩ false .silent (ResponseParser.ofLength 1)
    (str "GET") (str "/") ⟨[], by simp⟩ [] [] [] hhost).2
      (Or.inr ⟨?_, fun _ _ _ => ⟨rfl, fun hnever => ?_⟩⟩)
  · exact (Client.urlText_reads_iff hhost).1 hread
  · exact absurd (hnever.handshakes 0) (by decide)

/-- A request to `https://a@[b/` aborts, whatever the calls would return. -/
theorem https_request_aborts :
    ¬ ∀ (c : Client) (ndebug : Bool) (o : Outcomes) (parser : ResponseParser Nat)
      (method path : Str) (headers : TypeHeaders) (params : List (Str × Str))
      (body contentType : Str), str "https://" <+: lower c.host →
        KeepsToTls c ndebug o parser method path headers params body contentType := by
  intro h
  obtain ⟨-, n, hends⟩ := h ⟨str "https://a@[b", -1, []⟩ true .silent (ResponseParser.ofLength 1)
    (str "GET") (str "/") ⟨[], by simp⟩ [] [] [] (by decide)
  have hparse : parseUrl true
      (Client.urlText ⟨str "https://a@[b", -1, []⟩ (str "GET") (str "/") []) = none := by decide
  obtain ⟨hresult, htrace⟩ := Client.sendRequest_aborts (Outcomes.silent.first n)
    (ResponseParser.ofLength 1) ⟨[], by simp⟩ [] [] (by decide : str "/" ≠ []) hparse
  rw [hresult, htrace] at hends
  rcases hends with ⟨bytes, hmem⟩ | ⟨⟨error, herror, -⟩, -⟩
  · simp at hmem
  · cases herror

end Ssgx.Http
