import Ssgx.Http.Url

/-!
# The exchange of one request

`InitContext`, `DoRequest`, `http_write` and `http_read` of `HttpClient.cpp`. Every result of a call
of the TLS library and of the network ocalls is an argument (`ExchangeIo`); where a loop asks more
often than there are results, it is still waiting. The response parser is any machine that is fed
one byte after the other (`ResponseParser`).
-/

set_option autoImplicit false

namespace Ssgx.Http

open Ssgx.Support

/-! ## Results -/

/-- `HttpError`. -/
inductive HttpError where
  | ok
  | invalidParam
  | invalidCall
  | invalidUrl
  | setSeedFailed
  | caCertsWrong
  | sslConfigFailed
  | sslSetupFailed
  | sslHostNameWrong
  | handShakeFailed
  | verifyCACertsFailed
  | connectFailed
  | writeFaild
  | readFailed
  | mallocFailed
deriving DecidableEq

/-- `HttpResult`. -/
structure HttpResult where
  code : HttpError
  msg : Str
deriving DecidableEq

/-- A number stored in an `int`. -/
def toInt32 (n : Int) : Int := Int.bmod n (2 ^ 32)

/-- `MBEDTLS_ERR_SSL_WANT_READ`. -/
def errSslWantRead : Int := -0x6900

/-- `MBEDTLS_ERR_SSL_WANT_WRITE`. -/
def errSslWantWrite : Int := -0x6880

/-- `MBEDTLS_ERR_X509_CERT_VERIFY_FAILED`. -/
def errX509CertVerifyFailed : Int := -0x2700

/-- `DATA_BUF_SIZE`. -/
def dataBufSize : Nat := 4 * 1024

/-- `max_retries` of both loops. -/
def maxRetries : Nat := 5

/-! ## The response parser -/

/-- `HttpResponseParser::ParseResult`. -/
inductive ParseResult where
  | parsingCompleted
  | parsingIncompleted
  | parsingError
deriving DecidableEq

/-- A response parser: its state, which holds the response read so far, and what it does with one
byte. -/
structure ResponseParser (S : Type) where
  start : S
  consume : S → Char → S × ParseResult

variable {S : Type}

/-- `HttpResponseParser::parse`: the bytes in order, until one completes the response or is wrong.
-/
def ResponseParser.parse (parser : ResponseParser S) : S → Str → S × ParseResult
  | s, [] => (s, .parsingIncompleted)
  | s, input :: rest =>
      match parser.consume s input with
      | (s', .parsingIncompleted) => parser.parse s' rest
      | (s', .parsingCompleted) => (s', .parsingCompleted)
      | (s', .parsingError) => (s', .parsingError)

/-- A parser whose responses have this number of bytes. -/
def ResponseParser.ofLength (length : Nat) : ResponseParser Nat where
  start := 0
  consume n _ := (n + 1, if n + 1 = length then .parsingCompleted else .parsingIncompleted)

/-! ## The loops -/

/-- What one read returns: the return value, and the bytes in the buffer, as many as it says. -/
structure ReadAnswer where
  ret : Int
  data : Str
  length_eq : 0 ≤ ret → (data.length : Int) = ret
  fits : ret ≤ dataBufSize

/-- A read without bytes has as many as it says. -/
theorem length_eq_nil : (0 : Int) ≤ 0 → (([] : Str).length : Int) = 0 := fun _ => rfl

theorem dataBufSize_nonneg : (0 : Int) ≤ dataBufSize := by decide

/-- How `http_read` ends: its return value, the state of the parser, and the bytes it was given. -/
structure ReadEnd (S : Type) where
  ret : Int
  parsed : S
  received : Str

/-- The loop of `http_read`, from the variables `retries` and `read_size`, the state of the parser
and the bytes received. `none` while it waits. -/
def readAnswers (parser : ResponseParser S) :
    List ReadAnswer → Nat → Int → S → Str → Option (ReadEnd S)
  | [], _, _, _, _ => none
  | a :: rest, retries, readSize, s, received =>
      if a.ret = errSslWantRead then
        if maxRetries < retries + 1 then some ⟨-1, s, received⟩
        else readAnswers parser rest (retries + 1) readSize s received
      else if a.ret < 0 then some ⟨a.ret, s, received⟩
      -- the end of the stream returns what was read, whether the response is complete or not
      else if a.ret = 0 then some ⟨readSize, s, received⟩
      else
        match parser.parse s a.data with
        | (s', .parsingIncompleted) =>
            readAnswers parser rest 0 (toInt32 (readSize + a.ret)) s' (received ++ a.data)
        -- complete and wrong responses leave the loop with the same return value
        | (s', _) => some ⟨toInt32 (readSize + a.ret), s', received ++ a.data⟩

/-- `http_read`. -/
def httpRead (parser : ResponseParser S) (reads : List ReadAnswer) : Option (ReadEnd S) :=
  readAnswers parser reads 0 0 parser.start []

/-- The loop of `http_write`, from the variables `retries` and `written_size`. -/
def writeAnswers (len : Nat) : List Int → Nat → Nat → Option Int
  | [], _, written => if written < len then none else some (toInt32 written)
  | ret :: rest, retries, written =>
      if written < len then
        if ret = errSslWantWrite then
          if maxRetries < retries + 1 then some (-1)
          else writeAnswers len rest (retries + 1) written
        -- an error, or nothing written, is the return value
        else if ret ≤ 0 then some ret
        else writeAnswers len rest 0 (written + ret.toNat)
      else some (toInt32 written)

/-- `http_write` of a request of this length. -/
def httpWrite (writes : List Int) (len : Nat) : Option Int :=
  if len = 0 then some 0 else writeAnswers len writes 0 0

/-- The loop of the handshake: `0`, or the error that ends it. -/
def handshake : List Int → Option Int
  | [] => none
  | ret :: rest =>
      if ret = 0 then some 0
      else if ret ≠ errSslWantRead ∧ ret ≠ errSslWantWrite then some ret
      else handshake rest

/-! ## The exchange -/

/-- The results of the calls an exchange makes, in the order of the code, and the texts of
`mbedtls_strerror`. -/
structure ExchangeIo where
  rand : Bool
  drbgSeed : Int
  x509Parse : Int
  configDefaults : Int
  connect : Int
  sslSetup : Int
  setHostname : Int
  handshakes : List Int
  writes : List Int
  reads : List ReadAnswer
  strerror : Int → Str

/-- Every call succeeds, with these results of the writes and reads. -/
def ExchangeIo.succeeding (writes : List Int) (reads : List ReadAnswer) : ExchangeIo where
  rand := true
  drbgSeed := 0
  x509Parse := 0
  configDefaults := 0
  connect := 0
  sslSetup := 0
  setHostname := 0
  handshakes := [0]
  writes := writes
  reads := reads
  strerror _ := []

/-- `InitContext`: the error, if there is one. -/
def initContext (io : ExchangeIo) (serverCa : Str) (isHttps : Bool) : Option HttpResult :=
  if isHttps then
    if io.rand = false then
      some ⟨.setSeedFailed, str "sgx_read_rand() failed! Unable to generate nonce."⟩
    else if io.drbgSeed ≠ 0 then
      some ⟨.setSeedFailed,
        str "mbedtls_ctr_drbg_seed() filed! Error: " ++ io.strerror io.drbgSeed⟩
    else if serverCa ≠ [] ∧ io.x509Parse ≠ 0 then
      some ⟨.caCertsWrong,
        str "mbedtls_x509_crt_parse() filed! Error: " ++ io.strerror io.x509Parse⟩
    else if io.configDefaults ≠ 0 then
      some ⟨.sslConfigFailed,
        str "mbedtls_ssl_config_defaults() filed! Error: " ++ io.strerror io.configDefaults⟩
    else none
  else none

/-- An error of `InitContext` is not a success. -/
theorem initContext_error {io : ExchangeIo} {serverCa : Str} {isHttps : Bool} {result : HttpResult}
    (h : initContext io serverCa isHttps = some result) : result.code ≠ .ok := by
  simp only [initContext] at h
  split_ifs at h
  all_goals
    cases h
    simp

/-- How a call ends: it aborts, it is still waiting, or it returns a result, with the state of the
parser and the bytes it was given where it has read. -/
inductive ExchangeEnd (S : Type) where
  | aborted
  | waiting
  | finished (result : HttpResult) (read : Option (ReadEnd S))

/-- What the network sees of an exchange: the connection, and the request handed to it. -/
inductive NetEvent where
  | connect (isHttps : Bool) (hostname port : Str)
  | write (request : Str)
deriving DecidableEq

/-- The calls of an exchange and how it ends. -/
structure Exchange (S : Type) where
  events : List NetEvent
  result : ExchangeEnd S

/-- The TLS part of `DoRequest`: the error that ends it, if there is one; `none` while it waits. -/
def tlsConnect (io : ExchangeIo) : Option (Option HttpResult) :=
  if io.sslSetup ≠ 0 then
    some (some ⟨.sslSetupFailed,
      str "mbedtls_ssl_setup() filed! Error: " ++ io.strerror io.sslSetup⟩)
  else if io.setHostname ≠ 0 then
    some (some ⟨.sslHostNameWrong,
      str "mbedtls_ssl_set_hostname() filed! Error: " ++ io.strerror io.setHostname⟩)
  else
    match handshake io.handshakes with
    | none => none
    | some ret =>
        if ret = 0 then some none
        else if ret = errX509CertVerifyFailed then
          some (some ⟨.verifyCACertsFailed,
            str "mbedtls_ssl_handshake() filed! Error: " ++ io.strerror ret⟩)
        else
          some (some ⟨.handShakeFailed,
            str "mbedtls_ssl_handshake() filed! Error: " ++ io.strerror ret⟩)

/-- An error of the TLS part is not reported as a success. -/
theorem tlsConnect_error {io : ExchangeIo} {result : HttpResult}
    (h : tlsConnect io = some (some result)) : result.code ≠ .ok := by
  simp only [tlsConnect] at h
  by_cases hsetup : io.sslSetup ≠ 0
  · rw [if_pos hsetup] at h
    cases h
    simp
  rw [if_neg hsetup] at h
  by_cases hname : io.setHostname ≠ 0
  · rw [if_pos hname] at h
    cases h
    simp
  rw [if_neg hname] at h
  cases hs : handshake io.handshakes with
  | none =>
      rw [hs] at h
      cases h
  | some ret =>
      simp only [hs] at h
      by_cases hzero : ret = 0
      · rw [if_pos hzero] at h
        cases h
      rw [if_neg hzero] at h
      by_cases hcert : ret = errX509CertVerifyFailed
      · rw [if_pos hcert] at h
        cases h
        simp
      · rw [if_neg hcert] at h
        cases h
        simp

/-- The end of `DoRequest`: the request is written and the response read. -/
def writeAndRead (io : ExchangeIo) (parser : ResponseParser S) (len : Nat) : ExchangeEnd S :=
  match httpWrite io.writes len with
  | none => .waiting
  | some ret =>
      if ret ≤ 0 then
        .finished ⟨.writeFaild, str "http_write() filed! ret: " ++ toText ret⟩ none
      else
        match httpRead parser io.reads with
        | none => .waiting
        | some e =>
            if e.ret ≤ 0 then
              .finished ⟨.readFailed, str "http_read() failed! ret: " ++ toText e.ret⟩ (some e)
            else .finished ⟨.ok, str "Success"⟩ (some e)

/-- `DoRequest`. -/
def doRequest (io : ExchangeIo) (parser : ResponseParser S) (url : HttpUrl) (isHttps : Bool)
    (request : Str) : Exchange S :=
  let connect := NetEvent.connect isHttps url.url.hostname url.port
  if io.connect ≠ 0 then
    ⟨[connect], .finished ⟨.connectFailed,
      str "mbedtls_net_connect_ocall() filed! Error: " ++ io.strerror io.connect⟩ none⟩
  else
    match (if isHttps then tlsConnect io else some none) with
    | none => ⟨[connect], .waiting⟩
    | some (some error) => ⟨[connect], .finished error none⟩
    | some none => ⟨[connect, .write request], writeAndRead io parser request.length⟩

end Ssgx.Http
