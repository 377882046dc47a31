import Ssgx.Http.TlsCalls

/-!
# The order of the calls of a request over TLS

`ClientEvent.AllowedAfter` is the rule for the calls of a request over `https`: nothing goes to the
network beside the TLS session, nothing to the session before its handshake, and no context is
closed or freed that was not set up. The triples carry it from call to call, with what each part
needs of the parts before it: `Ready`, `Required`, `Named` and `Established` up to the request,
`Sent` from there. The destructor of the context obeys the rule behind all of them
(`Ready.destroyed`, `Sent.destroyed`); only where the random numbers fail it is behind none
(`executeRequestCalls_unset`).

`openCalls_waits` and `openCalls_ends` say how the part up to the request ends: it waits for the
handshake, it is done, or it fails with an error.
-/

set_option autoImplicit false

namespace Ssgx.Http

open Ssgx.Support

variable {S : Type}

/-! ## What TLS asks for -/

/-- The calls that say whose certificate the handshake must see: the verification is required, the
chain is the client's, and the name is this one. -/
structure Configured (serverCa hostname : Str) (trace : List ClientEvent) : Prop where
  authmode : .confAuthmode .verifyRequired ∈ trace
  caChain : .confCaChain serverCa ∈ trace
  hostname : .setHostname hostname ∈ trace

/-- A handshake has returned 0 behind these calls. -/
def HandshakeDone (serverCa hostname : Str) (trace : List ClientEvent) : Prop :=
  ∃ front rest, trace = front ++ .handshake 0 :: rest ∧ Configured serverCa hostname front

/-- The contexts of the request are set up. -/
structure SetUp (trace : List ClientEvent) : Prop where
  net : .netInit ∈ trace
  contexts : ∀ context, .init context ∈ trace

/-- The rule of a request over `https`. What `mbedtls_ssl_close_notify` and the calls that free do
on a context that was not set up is undefined. -/
def ClientEvent.AllowedAfter (serverCa hostname : Str) (front : List ClientEvent) :
    ClientEvent → Prop
  | .netInit => True
  | .init _ => True
  | .confAuthmode mode => mode = .verifyRequired
  | .confCaChain ca => ca = serverCa
  | .connect _ _ => True
  | .setHostname name => name = hostname
  | .handshake _ => True
  | .sslWrite _ => HandshakeDone serverCa hostname front
  | .netSend _ => False
  | .closeNotify => .init .ssl ∈ front
  | .netFree => .netInit ∈ front
  | .free context => .init context ∈ front

/-- A trace that obeys the rule. -/
def SecureTrace (serverCa hostname : Str) (trace : List ClientEvent) : Prop :=
  Obeys (ClientEvent.AllowedAfter serverCa hostname) trace

/-- No byte of the request is sent. -/
def NothingSent (trace : List ClientEvent) : Prop :=
  ∀ bytes, .sslWrite bytes ∉ trace ∧ .netSend bytes ∉ trace

variable {serverCa hostname : Str}

theorem HandshakeDone.append {trace : List ClientEvent} (h : HandshakeDone serverCa hostname trace)
    (more : List ClientEvent) : HandshakeDone serverCa hostname (trace ++ more) := by
  obtain ⟨front, rest, rfl, hconfigured⟩ := h
  exact ⟨front, rest ++ more, by simp, hconfigured⟩

theorem NothingSent.append {trace events : List ClientEvent} (h : NothingSent trace)
    (hevents : NothingSent events) : NothingSent (trace ++ events) := by
  intro bytes
  simp only [List.mem_append]
  exact ⟨fun hmem => hmem.elim (h bytes).1 (hevents bytes).1,
    fun hmem => hmem.elim (h bytes).2 (hevents bytes).2⟩

theorem SetUp.append {trace : List ClientEvent} (h : SetUp trace) (more : List ClientEvent) :
    SetUp (trace ++ more) where
  net := List.mem_append_left _ h.net
  contexts context := List.mem_append_left _ (h.contexts context)

/-- The destructor frees what is set up. -/
theorem SetUp.destroyed {trace : List ClientEvent} (h : SetUp trace) :
    ∀ event ∈ contextDestroyed true, ∀ more,
      event.AllowedAfter serverCa hostname (trace ++ more) := by
  intro event hmem more
  have hmore := h.append more
  simp only [contextDestroyed, if_true, List.mem_cons, List.not_mem_nil, or_false] at hmem
  rcases hmem with rfl | rfl | rfl | rfl | rfl | rfl | rfl
  · exact hmore.contexts .ssl
  · exact hmore.net
  · exact hmore.contexts .caCert
  · exact hmore.contexts .ssl
  · exact hmore.contexts .conf
  · exact hmore.contexts .ctrDrbg
  · exact hmore.contexts .entropy

/-! ## One part after the other -/

/-- A secure trace in which nothing is sent yet. -/
def Opening (serverCa hostname : Str) (trace : List ClientEvent) : Prop :=
  SecureTrace serverCa hostname trace ∧ NothingSent trace

/-- The contexts are set up for it. -/
structure Ready (serverCa hostname : Str) (trace : List ClientEvent) : Prop where
  opening : Opening serverCa hostname trace
  setUp : SetUp trace

/-- The verification is required, against the client's chain. -/
structure Required (serverCa hostname : Str) (trace : List ClientEvent) : Prop where
  ready : Ready serverCa hostname trace
  authmode : .confAuthmode .verifyRequired ∈ trace
  caChain : .confCaChain serverCa ∈ trace

/-- Everything is configured for the handshake. -/
structure Named (serverCa hostname : Str) (trace : List ClientEvent) : Prop where
  ready : Ready serverCa hostname trace
  configured : Configured serverCa hostname trace

/-- The handshake is done, and nothing is sent yet. -/
structure Established (serverCa hostname : Str) (trace : List ClientEvent) : Prop where
  ready : Ready serverCa hostname trace
  done : HandshakeDone serverCa hostname trace

/-- Some of the request is sent, over TLS. -/
structure Sent (serverCa hostname : Str) (trace : List ClientEvent) : Prop where
  secure : SecureTrace serverCa hostname trace
  setUp : SetUp trace
  done : HandshakeDone serverCa hostname trace
  some : ∃ bytes, .sslWrite bytes ∈ trace

theorem nothingSent_nil : NothingSent [] := by simp [NothingSent]

theorem opening_nil : Opening serverCa hostname [] := ⟨obeys_nil, nothingSent_nil⟩

theorem Opening.concat {trace : List ClientEvent} (h : Opening serverCa hostname trace)
    {event : ClientEvent} (hallowed : event.AllowedAfter serverCa hostname trace)
    (hevent : NothingSent [event]) : Opening serverCa hostname (trace ++ [event]) :=
  ⟨h.1.concat hallowed, h.2.append hevent⟩

theorem Ready.concat {trace : List ClientEvent} (h : Ready serverCa hostname trace)
    {event : ClientEvent} (hallowed : event.AllowedAfter serverCa hostname trace)
    (hevent : NothingSent [event]) : Ready serverCa hostname (trace ++ [event]) :=
  ⟨h.opening.concat hallowed hevent, h.setUp.append _⟩

theorem Ready.destroyed {trace : List ClientEvent} (h : Ready serverCa hostname trace) :
    Opening serverCa hostname (trace ++ contextDestroyed true) :=
  ⟨h.opening.1.append h.setUp.destroyed,
    h.opening.2.append (by simp [NothingSent, contextDestroyed])⟩

theorem Required.connect {trace : List ClientEvent} (h : Required serverCa hostname trace)
    (name port : Str) : Required serverCa hostname (trace ++ [.connect name port]) where
  ready := h.ready.concat trivial (by simp [NothingSent])
  authmode := List.mem_append_left _ h.authmode
  caChain := List.mem_append_left _ h.caChain

theorem Required.setHostname {trace : List ClientEvent} (h : Required serverCa hostname trace) :
    Named serverCa hostname (trace ++ [.setHostname hostname]) where
  ready := h.ready.concat rfl (by simp [NothingSent])
  configured := ⟨List.mem_append_left _ h.authmode, List.mem_append_left _ h.caChain, by simp⟩

theorem Named.handshake {trace : List ClientEvent} (h : Named serverCa hostname trace)
    (ret : Int) : Named serverCa hostname (trace ++ [.handshake ret]) where
  ready := h.ready.concat trivial (by simp [NothingSent])
  configured := ⟨List.mem_append_left _ h.configured.authmode,
    List.mem_append_left _ h.configured.caChain, List.mem_append_left _ h.configured.hostname⟩

theorem Named.done {trace : List ClientEvent} (h : Named serverCa hostname trace) :
    Established serverCa hostname (trace ++ [.handshake 0]) where
  ready := (h.handshake 0).ready
  done := ⟨trace, [], rfl, h.configured⟩

theorem Established.send {trace : List ClientEvent} (h : Established serverCa hostname trace)
    (bytes : Str) : Sent serverCa hostname (trace ++ [sendEvent true bytes]) where
  secure := h.ready.opening.1.concat h.done
  setUp := h.ready.setUp.append _
  done := h.done.append _
  some := ⟨bytes, by simp [sendEvent]⟩

theorem Sent.send {trace : List ClientEvent} (h : Sent serverCa hostname trace) (bytes : Str) :
    Sent serverCa hostname (trace ++ [sendEvent true bytes]) where
  secure := h.secure.concat h.done
  setUp := h.setUp.append _
  done := h.done.append _
  some := by
    obtain ⟨sent, hmem⟩ := h.some
    exact ⟨sent, List.mem_append_left _ hmem⟩

theorem Sent.destroyed {trace : List ClientEvent} (h : Sent serverCa hostname trace) :
    Sent serverCa hostname (trace ++ contextDestroyed true) where
  secure := Obeys.append h.secure h.setUp.destroyed
  setUp := h.setUp.append _
  done := h.done.append _
  some := by
    obtain ⟨sent, hmem⟩ := h.some
    exact ⟨sent, List.mem_append_left _ hmem⟩

/-- The first contexts of the request are set up. -/
def SettingUp (serverCa hostname : Str) (contexts : List TlsContext)
    (trace : List ClientEvent) : Prop :=
  Opening serverCa hostname trace ∧ .netInit ∈ trace ∧ ∀ context ∈ contexts, .init context ∈ trace

theorem Opening.netInit {trace : List ClientEvent} (h : Opening serverCa hostname trace) :
    SettingUp serverCa hostname [] (trace ++ [.netInit]) :=
  ⟨h.concat trivial (by simp [NothingSent]), by simp, by simp⟩

theorem SettingUp.init {contexts : List TlsContext} {trace : List ClientEvent}
    (h : SettingUp serverCa hostname contexts trace) (context : TlsContext) :
    SettingUp serverCa hostname (context :: contexts) (trace ++ [.init context]) := by
  refine ⟨h.1.concat trivial (by simp [NothingSent]), List.mem_append_left _ h.2.1, ?_⟩
  rw [List.forall_mem_cons]
  exact ⟨by simp, fun other hmem => List.mem_append_left _ (h.2.2 other hmem)⟩

theorem SettingUp.ready {contexts : List TlsContext} {trace : List ClientEvent}
    (h : SettingUp serverCa hostname contexts trace) (hall : ∀ context, context ∈ contexts) :
    Ready serverCa hostname trace :=
  ⟨h.1, h.2.1, fun context => h.2.2 context (hall context)⟩

/-- With random numbers, `InitContext` fails only behind the calls that set up. -/
theorem initContextCalls_secure {io : ExchangeIo} (hrand : io.rand = true) :
    Call.Ensures (Opening serverCa hostname)
      (initContextCalls io serverCa true : ClientCalls S PUnit)
      (fun _ => Required serverCa hostname) (Ready serverCa hostname) := by
  simp only [initContextCalls, if_true]
  apply Call.ensures_note (fun _ => Opening.netInit)
  apply Call.ensures_check_of_not (by simp [hrand])
  apply Call.ensures_note (fun _ h => SettingUp.init h .ssl)
  apply Call.ensures_note (fun _ h => SettingUp.init h .conf)
  apply Call.ensures_note (fun _ h => SettingUp.init h .caCert)
  apply Call.ensures_note (fun _ h => SettingUp.init h .ctrDrbg)
  apply Call.ensures_note (Q := Ready serverCa hostname)
    (fun _ h => (SettingUp.init h .entropy).ready (by rintro (- | - | - | - | -) <;> simp))
  -- an early return leaves the trace as it is
  apply Call.ensures_check (fun _ h => h)
  apply Call.ensures_check (fun _ h => h)
  apply Call.ensures_check (fun _ h => h)
  intro trace htrace
  have hfirst : Ready serverCa hostname (trace ++ [.confAuthmode .verifyRequired]) :=
    htrace.concat rfl (by simp [NothingSent])
  have hboth : Ready serverCa hostname
      (trace ++ [.confAuthmode .verifyRequired] ++ [.confCaChain serverCa]) :=
    hfirst.concat rfl (by simp [NothingSent])
  exact ⟨hboth, by simp, by simp⟩

theorem handshakeCalls_secure (io : ExchangeIo) (rets : List Int) :
    Call.Ensures (Named serverCa hostname) (handshakeCalls io rets : ClientCalls S PUnit)
      (fun _ => Established serverCa hostname) (Ready serverCa hostname) := by
  induction rets with
  | nil => exact Call.ensures_raise (fun _ h => h.ready) _
  | cons ret rest ih =>
      by_cases hdone : ret = 0
      · subst hdone
        exact Call.ensures_note (fun _ => Named.done) (Call.ensures_pure fun _ h => h)
      simp only [handshakeCalls, if_neg hdone]
      apply Call.ensures_note (fun _ h => Named.handshake h ret)
      apply Call.ensures_ite
      · intro _
        apply Call.ensures_ite
        · intro _
          exact Call.ensures_raise (fun _ h => h.ready) _
        · intro _
          exact Call.ensures_raise (fun _ h => h.ready) _
      · intro _
        exact ih

theorem tlsConnectCalls_secure (io : ExchangeIo) (hhostname : nul ∉ hostname) :
    Call.Ensures (Required serverCa hostname)
      (tlsConnectCalls io hostname : ClientCalls S PUnit)
      (fun _ => Established serverCa hostname) (Ready serverCa hostname) := by
  simp only [tlsConnectCalls, upTo_of_not_mem hhostname]
  apply Call.ensures_check (fun _ h => h.ready)
  apply Call.ensures_note (fun _ => Required.setHostname)
  apply Call.ensures_check (fun _ h => h.ready)
  exact handshakeCalls_secure io io.handshakes

theorem connectCalls_secure (io : ExchangeIo) {url : HttpUrl} (hhostname : nul ∉ url.url.hostname) :
    Call.Ensures (Required serverCa url.url.hostname)
      (connectCalls io url true : ClientCalls S PUnit)
      (fun _ => Established serverCa url.url.hostname) (Ready serverCa url.url.hostname) := by
  simp only [connectCalls, if_true]
  apply Call.ensures_note (fun _ h => Required.connect h _ _)
  apply Call.ensures_check (fun _ h => h.ready)
  exact tlsConnectCalls_secure io hhostname

/-- The loop of `http_write` sends in its first round, and keeps the trace secure from there. -/
theorem writeCalls_secure {P : List ClientEvent → Prop}
    (hsend : ∀ trace bytes, P trace → Sent serverCa hostname (trace ++ [sendEvent true bytes]))
    (request : Str) (writes : List Int) (retries written : Nat)
    (hdone : request.length ≤ written → ∀ trace, P trace → Sent serverCa hostname trace) :
    Call.Ensures P (writeCalls true request writes retries written : ClientCalls S Int)
      (fun _ => Sent serverCa hostname) (Sent serverCa hostname) := by
  have hgo : ∀ trace bytes, Sent serverCa hostname trace →
      Sent serverCa hostname (trace ++ [sendEvent true bytes]) := fun _ bytes h => h.send bytes
  induction writes generalizing P retries written with
  | nil =>
      apply Call.ensures_ite
      · intro _
        apply Call.ensures_note (fun trace => hsend trace _)
        exact Call.ensures_raise (fun _ h => h) _
      · intro hwritten
        exact Call.ensures_pure (hdone (Nat.not_lt.1 hwritten))
  | cons ret rest ih =>
      apply Call.ensures_ite
      · intro _
        apply Call.ensures_note (fun trace => hsend trace _)
        apply Call.ensures_ite
        · intro _
          apply Call.ensures_ite
          · intro _
            exact Call.ensures_pure fun _ h => h
          · intro _
            exact ih hgo (retries + 1) written fun _ _ h => h
        · intro _
          apply Call.ensures_ite
          · intro _
            exact Call.ensures_pure fun _ h => h
          · intro _
            exact ih hgo 0 (written + ret.toNat) fun _ _ h => h
      · intro hwritten
        exact Call.ensures_pure (hdone (Nat.not_lt.1 hwritten))

theorem httpWriteCalls_secure {request : Str} (hrequest : 0 < request.length)
    (writes : List Int) :
    Call.Ensures (Established serverCa hostname)
      (httpWriteCalls true request writes : ClientCalls S Int)
      (fun _ => Sent serverCa hostname) (Sent serverCa hostname) := by
  rw [httpWriteCalls, if_neg (Nat.ne_of_gt hrequest)]
  refine writeCalls_secure (fun _ bytes h => h.send bytes) request writes 0 0 fun hwritten => ?_
  exact absurd hrequest (Nat.not_lt.2 hwritten)

theorem writeAndReadCalls_secure (io : ExchangeIo) (parser : ResponseParser S) {request : Str}
    (hrequest : 0 < request.length) :
    Call.Ensures (Established serverCa hostname) (writeAndReadCalls io parser true request)
      (fun _ => Sent serverCa hostname) (Sent serverCa hostname) := by
  apply Call.ensures_bind (httpWriteCalls_secure hrequest io.writes)
  intro ret
  apply Call.ensures_check (fun _ h => h)
  exact Call.ensures_pure fun _ h => h

/-! ## Up to the request -/

/-- `ExecuteRequest` over `https` in its context, up to the request. -/
def HttpClient.openCalls (c : HttpClient) (io : ExchangeIo) (url : HttpUrl) :
    ClientCalls S PUnit := do
  initContextCalls io c.serverCa true
  connectCalls io url true

theorem openCalls_secure (c : HttpClient) {io : ExchangeIo} {url : HttpUrl}
    (hhostname : nul ∉ url.url.hostname) (hrand : io.rand = true) :
    Call.Ensures (Opening c.serverCa url.url.hostname) (c.openCalls io url : ClientCalls S PUnit)
      (fun _ => Established c.serverCa url.url.hostname) (Ready c.serverCa url.url.hostname) := by
  apply Call.ensures_bind (initContextCalls_secure hrand)
  intro _
  exact connectCalls_secure io hhostname

section Execute

variable {c : HttpClient} {ndebug : Bool} {io : ExchangeIo} {parser : ResponseParser S}
  {method path : Str} {headers params : List Str} {body : Str} {url : HttpUrl}

/-- A URL that is not valid is refused before there is a context. -/
theorem executeRequestCalls_invalid (hparse : parseUrl ndebug (c.initUrl path params) = some url)
    (hinvalid : url.valid = false) :
    c.executeRequestCalls ndebug io parser method path headers params body [] =
      (.error (.finished ⟨.invalidUrl, str "Invalid url: " ++ c.initUrl path params⟩ none),
        []) := by
  simp only [HttpClient.executeRequestCalls, hparse]
  exact Call.bind_of_error (Call.raiseIf_of hinvalid _ _)

/-- The checks of a valid URL over `https` pass. -/
theorem executeRequestCalls_eq (hparse : parseUrl ndebug (c.initUrl path params) = some url)
    (hvalid : url.valid = true) (hscheme : url.url.scheme = str "https") :
    c.executeRequestCalls ndebug io parser method path headers params body =
      inContext true (c.openCalls io url >>= fun _ =>
        writeAndReadCalls io parser true (initRequest method url headers body)) := by
  funext trace
  have hhttps : decide (url.url.scheme = str "https") = true := by simp [hscheme]
  simp only [HttpClient.executeRequestCalls, hparse, failIf, hhttps]
  rw [Call.bind_of_ok (Call.raiseIf_of_not (by simp [hvalid]) _ trace),
    Call.bind_of_ok (Call.raiseIf_of_not (by simp [hscheme]) _ trace), HttpClient.openCalls,
    Call.bind_assoc]
  rfl

/-- The scope of a context ends well behind a trace that has set it up. -/
theorem inContext_opening {serverCa hostname : Str} {x : ClientCalls S (ExchangeEnd S)}
    {trace : List ClientEvent} (h : Ready serverCa hostname (x trace).2) :
    Opening serverCa hostname (inContext true x trace).2 := by
  rw [inContext, Call.atEnd_snd]
  cases returned (x trace).1 with
  | finished ret read => exact h.destroyed
  | aborted => exact h.opening
  | waiting => exact h.opening

theorem inContext_sent {serverCa hostname : Str} {x : ClientCalls S (ExchangeEnd S)}
    {trace : List ClientEvent} (h : Sent serverCa hostname (x trace).2) :
    Sent serverCa hostname (inContext true x trace).2 := by
  rw [inContext, Call.atEnd_snd]
  cases returned (x trace).1 with
  | finished ret read => exact h.destroyed
  | aborted => exact h
  | waiting => exact h

/-- Without random numbers the context is destroyed that was not set up. -/
theorem executeRequestCalls_unset (hparse : parseUrl ndebug (c.initUrl path params) = some url)
    (hvalid : url.valid = true) (hscheme : url.url.scheme = str "https")
    (hrand : io.rand = false) :
    (c.executeRequestCalls ndebug io parser method path headers params body []).2 =
      .netInit :: contextDestroyed true := by
  have hinit : (initContextCalls io c.serverCa true : ClientCalls S PUnit) [] =
      (.error (.finished ⟨.setSeedFailed,
        str "sgx_read_rand() failed! Unable to generate nonce."⟩ none), [.netInit]) :=
    (Call.bind_of_ok rfl).trans
      (Call.bind_of_error (Call.raiseIf_of hrand _ [ClientEvent.netInit]))
  rw [executeRequestCalls_eq hparse hvalid hscheme, HttpClient.openCalls, Call.bind_assoc,
    inContext, Call.atEnd_snd, Call.bind_of_error hinit]
  rfl

/-- That is not secure. -/
theorem not_secureTrace_unset (serverCa hostname : Str) :
    ¬ SecureTrace serverCa hostname (.netInit :: contextDestroyed true) := by
  intro h
  have hinit : .init .ssl ∈ [ClientEvent.netInit] := h [.netInit] .closeNotify _ rfl
  simp at hinit

end Execute

/-! ## How the part up to the request ends -/

/-- Everything before the handshake succeeds, and the handshake is not done. -/
structure ExchangeIo.WaitsForHandshake (io : ExchangeIo) (serverCa : Str) : Prop where
  init : initContext io serverCa true = none
  connect : io.connect = 0
  tls : tlsConnect io = none

/-- A part ends in an error. -/
def Fails (r : Except (ExchangeEnd S) PUnit) : Prop :=
  ∃ error, r = .error (.finished error none) ∧ error.code ≠ .ok

section OpenEnds

variable {c : HttpClient} {io : ExchangeIo}

theorem openCalls_waits (url : HttpUrl) (h : io.WaitsForHandshake c.serverCa) :
    Call.EndsIn (c.openCalls io url : ClientCalls S PUnit) (.error .waiting) := by
  have hinit := initContextCalls_ends (S := S) io c.serverCa true
  have hconnect := connectCalls_ends (S := S) io url true
  rw [h.init] at hinit
  rw [if_neg (by simp [h.connect]), if_pos rfl, h.tls] at hconnect
  exact Call.endsIn_bind hinit hconnect

theorem openCalls_ends (c : HttpClient) (url : HttpUrl) (h : ¬ io.WaitsForHandshake c.serverCa) :
    ∃ r, Call.EndsIn (c.openCalls io url : ClientCalls S PUnit) r ∧ (r = .ok ⟨⟩ ∨ Fails r) := by
  have hinit := initContextCalls_ends (S := S) io c.serverCa true
  have hconnect := connectCalls_ends (S := S) io url true
  cases herror : initContext io c.serverCa true with
  | some error =>
      rw [herror] at hinit
      exact ⟨_, Call.endsIn_bind_error hinit, Or.inr ⟨error, rfl, initContext_error herror⟩⟩
  | none =>
      rw [herror] at hinit
      by_cases hfails : io.connect ≠ 0
      · rw [if_pos hfails] at hconnect
        exact ⟨_, Call.endsIn_bind hinit hconnect, Or.inr ⟨_, rfl, by simp⟩⟩
      rw [if_neg hfails, if_pos rfl] at hconnect
      refine ⟨_, Call.endsIn_bind hinit hconnect, ?_⟩
      rcases htls : tlsConnect io with - | (- | error)
      · exact absurd ⟨herror, not_not.1 hfails, htls⟩ h
      · exact Or.inl rfl
      · exact Or.inr ⟨error, rfl, tlsConnect_error htls⟩

end OpenEnds

end Ssgx.Http
