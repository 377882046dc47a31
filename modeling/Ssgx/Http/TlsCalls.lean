import Ssgx.Http.Client
import Ssgx.Http.Message
import Ssgx.Support.Trace

/-!
# The calls of a request

The calls that set up, configure, connect, send and free, written down in the order in which
`ExecuteRequest` makes them. `InitContext`, `DoRequest` and `http_write` are programs here that note
each of these calls before its result is known; an early return is raised. The destructor of the
`HttpContext` comes behind them wherever the request returns. Without the trace they return what the
exchange returns (`executeRequestCalls_returned`).
-/

set_option autoImplicit false

namespace Ssgx.Http

open Ssgx.Support

variable {S : Type}

/-! ## The calls -/

/-- `MBEDTLS_SSL_VERIFY_NONE`, `MBEDTLS_SSL_VERIFY_OPTIONAL`, `MBEDTLS_SSL_VERIFY_REQUIRED`. -/
inductive AuthMode where
  | verifyNone
  | verifyOptional
  | verifyRequired
deriving DecidableEq

/-- The members of `HttpContext` that mbedtls sets up and frees. -/
inductive TlsContext where
  | ssl
  | conf
  | caCert
  | ctrDrbg
  | entropy
deriving DecidableEq

/-- A call that sets up, configures, connects, sends or frees: `mbedtls_net_init_ocall`,
`mbedtls_ssl_init` and its siblings for the other contexts, `mbedtls_ssl_conf_authmode`,
`mbedtls_ssl_conf_ca_chain` with the certificates of a text, `mbedtls_net_connect_ocall`,
`mbedtls_ssl_set_hostname`, `mbedtls_ssl_handshake` with its result, `mbedtls_ssl_write` and
`mbedtls_net_send_ocall` with the bytes they are given, `mbedtls_ssl_close_notify`,
`mbedtls_net_free_ocall`, and `mbedtls_ssl_free` and its siblings. -/
inductive ClientEvent where
  | netInit
  | init (context : TlsContext)
  | confAuthmode (mode : AuthMode)
  | confCaChain (serverCa : Str)
  | connect (hostname port : Str)
  | setHostname (hostname : Str)
  | handshake (ret : Int)
  | sslWrite (bytes : Str)
  | netSend (bytes : Str)
  | closeNotify
  | netFree
  | free (context : TlsContext)
deriving DecidableEq

/-- A part of a request: it notes its calls, and raises what `ExecuteRequest` returns early. -/
abbrev ClientCalls (S α : Type) : Type := Call (ExchangeEnd S) (List ClientEvent) α

/-- An early return of an error. -/
def failIf (p : Prop) [Decidable p] (code : HttpError) (msg : Str) : ClientCalls S PUnit :=
  .raiseIf p (.finished ⟨code, msg⟩ none)

/-- `InitContext`. -/
def initContextCalls (io : ExchangeIo) (serverCa : Str) (isHttps : Bool) :
    ClientCalls S PUnit := do
  .note .netInit
  if isHttps then do
    failIf (io.rand = false) .setSeedFailed
      (str "sgx_read_rand() failed! Unable to generate nonce.")
    .note (.init .ssl)
    .note (.init .conf)
    .note (.init .caCert)
    .note (.init .ctrDrbg)
    .note (.init .entropy)
    failIf (io.drbgSeed ≠ 0) .setSeedFailed
      (str "mbedtls_ctr_drbg_seed() filed! Error: " ++ io.strerror io.drbgSeed)
    failIf (serverCa ≠ [] ∧ io.x509Parse ≠ 0) .caCertsWrong
      (str "mbedtls_x509_crt_parse() filed! Error: " ++ io.strerror io.x509Parse)
    failIf (io.configDefaults ≠ 0) .sslConfigFailed
      (str "mbedtls_ssl_config_defaults() filed! Error: " ++ io.strerror io.configDefaults)
    .note (.confAuthmode .verifyRequired)
    .note (.confCaChain serverCa)
  else pure ⟨⟩

/-- The loop of the handshake. -/
def handshakeCalls (io : ExchangeIo) : List Int → ClientCalls S PUnit
  | [] => .raise .waiting
  | ret :: rest => do
      .note (.handshake ret)
      if ret = 0 then pure ⟨⟩
      else if ret ≠ errSslWantRead ∧ ret ≠ errSslWantWrite then
        if ret = errX509CertVerifyFailed then
          .raise (.finished ⟨.verifyCACertsFailed,
            str "mbedtls_ssl_handshake() filed! Error: " ++ io.strerror ret⟩ none)
        else
          .raise (.finished ⟨.handShakeFailed,
            str "mbedtls_ssl_handshake() filed! Error: " ++ io.strerror ret⟩ none)
      else handshakeCalls io rest

/-- The TLS part of `DoRequest`. -/
def tlsConnectCalls (io : ExchangeIo) (hostname : Str) : ClientCalls S PUnit := do
  failIf (io.sslSetup ≠ 0) .sslSetupFailed
    (str "mbedtls_ssl_setup() filed! Error: " ++ io.strerror io.sslSetup)
  .note (.setHostname (upTo nul hostname))
  failIf (io.setHostname ≠ 0) .sslHostNameWrong
    (str "mbedtls_ssl_set_hostname() filed! Error: " ++ io.strerror io.setHostname)
  handshakeCalls io io.handshakes

/-- The call that the loop of `http_write` makes. -/
def sendEvent (isHttps : Bool) (bytes : Str) : ClientEvent :=
  if isHttps then .sslWrite bytes else .netSend bytes

/-- The loop of `http_write`, from the variables `retries` and `written_size`. -/
def writeCalls (isHttps : Bool) (request : Str) : List Int → Nat → Nat → ClientCalls S Int
  | [], _, written =>
      if written < request.length then do
        .note (sendEvent isHttps (request.drop written))
        .raise .waiting
      else pure (toInt32 written)
  | ret :: rest, retries, written =>
      if written < request.length then do
        .note (sendEvent isHttps (request.drop written))
        if ret = errSslWantWrite then
          if maxRetries < retries + 1 then pure (-1)
          else writeCalls isHttps request rest (retries + 1) written
        else if ret ≤ 0 then pure ret
        else writeCalls isHttps request rest 0 (written + ret.toNat)
      else pure (toInt32 written)

/-- `http_write`. -/
def httpWriteCalls (isHttps : Bool) (request : Str) (writes : List Int) : ClientCalls S Int :=
  if request.length = 0 then pure 0 else writeCalls isHttps request writes 0 0

/-- The end of `DoRequest`, where the response is read. -/
def readResponse (io : ExchangeIo) (parser : ResponseParser S) : ExchangeEnd S :=
  match httpRead parser io.reads with
  | none => .waiting
  | some e =>
      if e.ret ≤ 0 then
        .finished ⟨.readFailed, str "http_read() failed! ret: " ++ toText e.ret⟩ (some e)
      else .finished ⟨.ok, str "Success"⟩ (some e)

/-- `DoRequest` up to the request: the connection, with TLS over it for `https`. -/
def connectCalls (io : ExchangeIo) (url : HttpUrl) (isHttps : Bool) : ClientCalls S PUnit := do
  .note (.connect (upTo nul url.url.hostname) (upTo nul url.port))
  failIf (io.connect ≠ 0) .connectFailed
    (str "mbedtls_net_connect_ocall() filed! Error: " ++ io.strerror io.connect)
  if isHttps then tlsConnectCalls io url.url.hostname else pure ⟨⟩

/-- `DoRequest` from there: the request is written and the response read. -/
def writeAndReadCalls (io : ExchangeIo) (parser : ResponseParser S) (isHttps : Bool)
    (request : Str) : ClientCalls S (ExchangeEnd S) := do
  let ret ← httpWriteCalls isHttps request io.writes
  failIf (ret ≤ 0) .writeFaild (str "http_write() filed! ret: " ++ toText ret)
  pure (readResponse io parser)

/-- `DoRequest`. -/
def doRequestCalls (io : ExchangeIo) (parser : ResponseParser S) (url : HttpUrl) (isHttps : Bool)
    (request : Str) : ClientCalls S (ExchangeEnd S) := do
  connectCalls io url isHttps
  writeAndReadCalls io parser isHttps request

/-- What a request returns, early or at its end. -/
def returned : Except (ExchangeEnd S) (ExchangeEnd S) → ExchangeEnd S
  | .ok result => result
  | .error result => result

/-- The calls of `~HttpContext`. -/
def contextDestroyed (isHttps : Bool) : List ClientEvent :=
  if isHttps then
    [.closeNotify, .netFree, .free .caCert, .free .ssl, .free .conf, .free .ctrDrbg, .free .entropy]
  else [.netFree]

/-- The scope of an `HttpContext`: it is destroyed where the request returns, early or at its end,
and not while a call is waited for. -/
def inContext (isHttps : Bool) (x : ClientCalls S (ExchangeEnd S)) :
    ClientCalls S (ExchangeEnd S) :=
  x.atEnd fun r trace =>
    match returned r with
    | .finished _ _ => trace ++ contextDestroyed isHttps
    | .aborted | .waiting => trace

/-- `ExecuteRequest`. -/
def HttpClient.executeRequestCalls (c : HttpClient) (ndebug : Bool) (io : ExchangeIo)
    (parser : ResponseParser S) (method path : Str) (headers params : List Str) (body : Str) :
    ClientCalls S (ExchangeEnd S) :=
  let urlStr := c.initUrl path params
  match parseUrl ndebug urlStr with
  | none => pure .aborted
  | some url => do
      failIf (url.valid = false) .invalidUrl (str "Invalid url: " ++ urlStr)
      failIf (url.url.scheme ≠ str "http" ∧ url.url.scheme ≠ str "https") .invalidUrl
        (str "Url scheme is not either http nor https: " ++ urlStr)
      inContext (url.url.scheme = str "https") do
        initContextCalls io c.serverCa (url.url.scheme = str "https")
        doRequestCalls io parser url (url.url.scheme = str "https")
          (initRequest method url headers body)

/-- The calls of `SendRequest`. -/
def Client.sendRequestTrace (c : Client) (ndebug : Bool) (io : ExchangeIo)
    (parser : ResponseParser S) (method path : Str) (headers : TypeHeaders)
    (params : List (Str × Str)) (body contentType : Str) : List ClientEvent :=
  if path.isEmpty then []
  else
    ((HttpClient.make c.host c.port c.serverCa).executeRequestCalls ndebug io parser
      (sentMethod method) path (headerLines headers contentType) (sentParams method params)
      (sentBody method body) []).2

/-! ## Without the trace -/

/-- The end of a part that has this error. -/
def errorEnd : Option HttpResult → Except (ExchangeEnd S) PUnit
  | some error => .error (.finished error none)
  | none => .ok ⟨⟩

/-- The end of a part that has this error, or waits. -/
def partEnd : Option (Option HttpResult) → Except (ExchangeEnd S) PUnit
  | some end? => errorEnd end?
  | none => .error .waiting

theorem endsIn_failIf {α : Type} {p : Prop} [Decidable p] {code : HttpError} {msg : Str}
    {f : PUnit → ClientCalls S α} {r : Except (ExchangeEnd S) α} (hf : Call.EndsIn (f ⟨⟩) r) :
    Call.EndsIn (failIf p code msg >>= f) (if p then .error (.finished ⟨code, msg⟩ none) else r) :=
  Call.endsIn_check hf

theorem endsIn_note {α : Type} {event : ClientEvent} {f : PUnit → ClientCalls S α}
    {r : Except (ExchangeEnd S) α} (hf : Call.EndsIn (f ⟨⟩) r) :
    Call.EndsIn (.note event >>= f) r :=
  Call.endsIn_bind (Call.endsIn_update _) hf

theorem initContextCalls_ends (io : ExchangeIo) (serverCa : Str) (isHttps : Bool) :
    Call.EndsIn (initContextCalls io serverCa isHttps : ClientCalls S PUnit)
      (errorEnd (initContext io serverCa isHttps)) := by
  simp only [initContextCalls, initContext, apply_ite errorEnd]
  apply endsIn_note
  apply Call.endsIn_ite
  · -- the checks in the order of the code
    apply endsIn_failIf
    apply endsIn_note
    apply endsIn_note
    apply endsIn_note
    apply endsIn_note
    apply endsIn_note
    apply endsIn_failIf
    apply endsIn_failIf
    apply endsIn_failIf
    apply endsIn_note
    exact Call.endsIn_update _
  · exact Call.endsIn_pure _

/-- How the loop of the handshake ends, by the result it ends with. -/
def handshakeEnd (io : ExchangeIo) : Option Int → Option (Option HttpResult)
  | none => none
  | some ret =>
      if ret = 0 then some none
      else if ret = errX509CertVerifyFailed then
        some (some ⟨.verifyCACertsFailed,
          str "mbedtls_ssl_handshake() filed! Error: " ++ io.strerror ret⟩)
      else
        some (some ⟨.handShakeFailed,
          str "mbedtls_ssl_handshake() filed! Error: " ++ io.strerror ret⟩)

theorem handshakeCalls_ends (io : ExchangeIo) (rets : List Int) :
    Call.EndsIn (handshakeCalls io rets : ClientCalls S PUnit)
      (partEnd (handshakeEnd io (handshake rets))) := by
  induction rets with
  | nil => exact Call.endsIn_raise _
  | cons ret rest ih =>
      apply endsIn_note
      by_cases hdone : ret = 0
      · simp only [handshake, handshakeEnd, if_pos hdone, if_true]
        exact Call.endsIn_pure _
      by_cases hother : ret ≠ errSslWantRead ∧ ret ≠ errSslWantWrite
      · simp only [handshake, handshakeEnd, if_neg hdone, if_pos hother, apply_ite partEnd]
        apply Call.endsIn_ite
        · exact Call.endsIn_raise _
        · exact Call.endsIn_raise _
      -- the loop asks again
      · simp only [handshake, if_neg hdone, if_neg hother]
        exact ih

theorem tlsConnectCalls_ends (io : ExchangeIo) (hostname : Str) :
    Call.EndsIn (tlsConnectCalls io hostname : ClientCalls S PUnit) (partEnd (tlsConnect io)) := by
  have htls : tlsConnect io =
      if io.sslSetup ≠ 0 then
        some (some ⟨.sslSetupFailed,
          str "mbedtls_ssl_setup() filed! Error: " ++ io.strerror io.sslSetup⟩)
      else if io.setHostname ≠ 0 then
        some (some ⟨.sslHostNameWrong,
          str "mbedtls_ssl_set_hostname() filed! Error: " ++ io.strerror io.setHostname⟩)
      else handshakeEnd io (handshake io.handshakes) := rfl
  simp only [tlsConnectCalls, htls, apply_ite partEnd]
  apply endsIn_failIf
  apply endsIn_note
  apply endsIn_failIf
  exact handshakeCalls_ends io io.handshakes

/-- The end of `http_write`. -/
def writeEnd : Option Int → Except (ExchangeEnd S) Int
  | some ret => .ok ret
  | none => .error .waiting

theorem writeCalls_ends (isHttps : Bool) (request : Str) (writes : List Int)
    (retries written : Nat) :
    Call.EndsIn (writeCalls isHttps request writes retries written : ClientCalls S Int)
      (writeEnd (writeAnswers request.length writes retries written)) := by
  induction writes generalizing retries written with
  | nil =>
      simp only [writeCalls, writeAnswers, apply_ite writeEnd]
      apply Call.endsIn_ite
      · apply endsIn_note
        exact Call.endsIn_raise _
      · exact Call.endsIn_pure _
  | cons ret rest ih =>
      simp only [writeCalls, writeAnswers, apply_ite writeEnd]
      apply Call.endsIn_ite
      · apply endsIn_note
        apply Call.endsIn_ite
        · apply Call.endsIn_ite
          · exact Call.endsIn_pure _
          · exact ih (retries + 1) written
        · apply Call.endsIn_ite
          · exact Call.endsIn_pure _
          · exact ih 0 (written + ret.toNat)
      · exact Call.endsIn_pure _

theorem httpWriteCalls_ends (isHttps : Bool) (request : Str) (writes : List Int) :
    Call.EndsIn (httpWriteCalls isHttps request writes : ClientCalls S Int)
      (writeEnd (httpWrite writes request.length)) := by
  simp only [httpWriteCalls, httpWrite, apply_ite writeEnd]
  apply Call.endsIn_ite
  · exact Call.endsIn_pure _
  · exact writeCalls_ends isHttps request writes 0 0

theorem connectCalls_ends (io : ExchangeIo) (url : HttpUrl) (isHttps : Bool) :
    Call.EndsIn (connectCalls io url isHttps : ClientCalls S PUnit)
      (if io.connect ≠ 0 then .error (.finished ⟨.connectFailed,
          str "mbedtls_net_connect_ocall() filed! Error: " ++ io.strerror io.connect⟩ none)
        else partEnd (if isHttps then tlsConnect io else some none)) := by
  rw [connectCalls, apply_ite partEnd]
  apply endsIn_note
  apply endsIn_failIf
  apply Call.endsIn_ite
  · exact tlsConnectCalls_ends io url.url.hostname
  · exact Call.endsIn_pure _

theorem writeAndReadCalls_returned (io : ExchangeIo) (parser : ResponseParser S) (isHttps : Bool)
    (request : Str) (trace : List ClientEvent) :
    returned (writeAndReadCalls io parser isHttps request trace).1 =
      writeAndRead io parser request.length := by
  have hwrite := httpWriteCalls_ends (S := S) isHttps request io.writes
  simp only [writeAndRead]
  cases hret : httpWrite io.writes request.length with
  | none =>
      rw [hret] at hwrite
      exact congrArg returned (Call.endsIn_bind_error hwrite trace)
  | some ret =>
      rw [hret] at hwrite
      have hend : Call.EndsIn (writeAndReadCalls io parser isHttps request)
          (if ret ≤ 0 then .error (.finished ⟨.writeFaild,
              str "http_write() filed! ret: " ++ toText ret⟩ none)
            else .ok (readResponse io parser)) := by
        apply Call.endsIn_bind hwrite
        apply endsIn_failIf
        exact Call.endsIn_pure _
      refine (congrArg returned (hend trace)).trans ?_
      rw [apply_ite returned]
      rfl

/-- `DoRequest` returns what the exchange returns. -/
theorem doRequestCalls_returned (io : ExchangeIo) (parser : ResponseParser S) (url : HttpUrl)
    (isHttps : Bool) (request : Str) (trace : List ClientEvent) :
    returned (doRequestCalls io parser url isHttps request trace).1 =
      (doRequest io parser url isHttps request).result := by
  have hconnect := connectCalls_ends (S := S) io url isHttps
  simp only [doRequest]
  by_cases hfails : io.connect ≠ 0
  · rw [if_pos hfails] at hconnect ⊢
    exact congrArg returned (Call.endsIn_bind_error hconnect trace)
  rw [if_neg hfails] at hconnect ⊢
  rcases hpart : (if isHttps then tlsConnect io else some none) with - | (- | error)
  · rw [hpart] at hconnect
    exact congrArg returned (Call.endsIn_bind_error hconnect trace)
  · rw [hpart] at hconnect
    rw [doRequestCalls, Call.bind_of_ok (Call.EndsIn.ok hconnect trace)]
    exact writeAndReadCalls_returned io parser isHttps request _
  · rw [hpart] at hconnect
    exact congrArg returned (Call.endsIn_bind_error hconnect trace)

/-- **The trace changes nothing.** The calls of `ExecuteRequest` return what it returns. -/
theorem executeRequestCalls_returned (c : HttpClient) (ndebug : Bool) (io : ExchangeIo)
    (parser : ResponseParser S) (method path : Str) (headers params : List Str) (body : Str)
    (trace : List ClientEvent) :
    returned (c.executeRequestCalls ndebug io parser method path headers params body trace).1 =
      (c.executeRequest ndebug io parser method path headers params body).result := by
  simp only [HttpClient.executeRequestCalls, HttpClient.executeRequest, HttpClient.prepare]
  cases hparse : parseUrl ndebug (c.initUrl path params) with
  | none => rfl
  | some url =>
      simp only
      by_cases hvalid : url.valid = false
      · rw [if_pos hvalid, failIf, Call.bind_of_error (Call.raiseIf_of hvalid _ trace)]
        rfl
      rw [if_neg hvalid, failIf, Call.bind_of_ok (Call.raiseIf_of_not hvalid _ trace)]
      by_cases hscheme : url.url.scheme ≠ str "http" ∧ url.url.scheme ≠ str "https"
      · rw [if_pos hscheme, failIf, Call.bind_of_error (Call.raiseIf_of hscheme _ trace)]
        rfl
      rw [if_neg hscheme, failIf, Call.bind_of_ok (Call.raiseIf_of_not hscheme _ trace)]
      rw [inContext, Call.atEnd_fst]
      have hinit := initContextCalls_ends (S := S) io c.serverCa (url.url.scheme = str "https")
      cases herror : initContext io c.serverCa (url.url.scheme = str "https") with
      | some error =>
          rw [herror] at hinit
          exact congrArg returned (Call.endsIn_bind_error hinit trace)
      | none =>
          rw [herror] at hinit
          rw [Call.bind_of_ok (Call.EndsIn.ok hinit trace)]
          exact doRequestCalls_returned io parser url _ _ _

end Ssgx.Http
