import Ssgx.Http.Transport

/-!
# The client

`Client` of `Client.cpp` over `HttpClient` of `HttpClient.cpp`: the URL is the host, the port, the
path and the parameters one behind the other; it is parsed again, and the request is written from
its parts.

`prepare` is what `ExecuteRequest` does before the first call to the network: it ends in the URL and
the request text that `DoRequest` is given, or in an error.
-/

set_option autoImplicit false

namespace Ssgx.Http

open Ssgx.Support

variable {S : Type}

/-- `HttpClient`. -/
structure HttpClient where
  host : Str
  port : Int
  serverCa : Str

/-- The constructor of `HttpClient`, which puts the host in lower case. -/
def HttpClient.make (host : Str) (port : Int) (serverCa : Str) : HttpClient :=
  ⟨lower host, port, serverCa⟩

/-- The path with the parameters. -/
def pathWithParams (path : Str) (params : List Str) : Str :=
  let paramsStr := List.intercalate ['&'] params
  if paramsStr.isEmpty then path else path ++ '?' :: paramsStr

/-- `InitUrl`. -/
def HttpClient.initUrl (c : HttpClient) (path : Str) (params : List Str) : Str :=
  if c.port = -1 then c.host ++ pathWithParams path params
  else c.host ++ ':' :: toText c.port ++ pathWithParams path params

/-- The value of the `Host` line. -/
def hostLine (url : HttpUrl) : Str :=
  if url.port.isEmpty || url.port = str "80" || url.port = str "443" then url.url.hostname
  else url.url.hostname ++ ':' :: url.port

/-- The target in the request line. -/
def requestTarget (url : HttpUrl) : Str :=
  if url.url.query.isEmpty then url.url.path else url.url.path ++ '?' :: url.url.query

/-- Whether a header of the caller takes the place of the `Connection` header. -/
def hasConnectionHeader (headers : List Str) : Bool :=
  headers.any fun header => (str "Connection:").isPrefixOf header

/-- `InitRequest`. -/
def initRequest (method : Str) (url : HttpUrl) (headers : List Str) (body : Str) : Str :=
  method ++ ' ' :: (requestTarget url ++ ' ' :: (str "HTTP/1.1" ++ (crlf ++
    (str "Host: " ++ (hostLine url ++ (crlf ++
      (str "Accept: */*" ++ (crlf ++
        -- the caller's lines go in as they are
        (headers.flatMap (· ++ crlf) ++
          ((if hasConnectionHeader headers then [] else str "Connection: Keep-Alive" ++ crlf) ++
            ((if method = str "POST" || method = str "PUT" then
                str "Content-Length: " ++ (decimal body.length ++ crlf)
              else []) ++
              (crlf ++ body))))))))))))

/-- What `ExecuteRequest` has when it is ready for the network. -/
inductive Prepared where
  | aborted
  | failed (result : HttpResult)
  | ready (url : HttpUrl) (isHttps : Bool) (request : Str)

/-- `ExecuteRequest` up to `DoRequest`. -/
def HttpClient.prepare (c : HttpClient) (ndebug : Bool) (io : ExchangeIo) (method path : Str)
    (headers params : List Str) (body : Str) : Prepared :=
  let urlStr := c.initUrl path params
  match parseUrl ndebug urlStr with
  | none => .aborted
  | some url =>
      if url.valid = false then .failed ⟨.invalidUrl, str "Invalid url: " ++ urlStr⟩
      else if url.url.scheme ≠ str "http" ∧ url.url.scheme ≠ str "https" then
        .failed ⟨.invalidUrl, str "Url scheme is not either http nor https: " ++ urlStr⟩
      else
        match initContext io c.serverCa (url.url.scheme = str "https") with
        | some error => .failed error
        | none =>
            .ready url (url.url.scheme = str "https") (initRequest method url headers body)

/-- `ExecuteRequest` from there: only a request that is ready reaches the network. -/
def Prepared.execute (io : ExchangeIo) (parser : ResponseParser S) : Prepared → Exchange S
  | .aborted => ⟨[], .aborted⟩
  | .failed result => ⟨[], .finished result none⟩
  | .ready url isHttps request => doRequest io parser url isHttps request

/-- `ExecuteRequest`. -/
def HttpClient.executeRequest (c : HttpClient) (ndebug : Bool) (io : ExchangeIo)
    (parser : ResponseParser S) (method path : Str) (headers params : List Str) (body : Str) :
    Exchange S :=
  (c.prepare ndebug io method path headers params body).execute io parser

/-- `HttpClient::Get`. -/
def HttpClient.get (c : HttpClient) (ndebug : Bool) (io : ExchangeIo) (parser : ResponseParser S)
    (path : Str) (headers params : List Str) : Exchange S :=
  c.executeRequest ndebug io parser (str "GET") path headers params []

/-- `HttpClient::Post`, which has no parameters. -/
def HttpClient.post (c : HttpClient) (ndebug : Bool) (io : ExchangeIo) (parser : ResponseParser S)
    (path : Str) (headers : List Str) (body : Str) : Exchange S :=
  c.executeRequest ndebug io parser (str "POST") path headers [] body

/-! ## The public client -/

/-- `Client`. -/
structure Client where
  host : Str
  port : Int
  serverCa : Str

/-- `TypeHeaders`: a map whose keys are compared without regard to case. -/
structure TypeHeaders where
  items : List (Str × Str)
  distinct : (items.map fun item => lower item.1).Nodup

/-- `ErrorCode`, as far as `MapErrorCode` returns it. -/
inductive ErrorCode where
  | success
  | invalidParam
  | invalidCall
  | invalidUrl
  | setSeedFailed
  | serverCAError
  | sslConfigFailed
  | sslSetupFailed
  | sslHostWrong
  | sslHandShakeFailed
  | verifyCertFailed
  | connectFailed
  | writeFailed
  | readFailed
  | mallocFailed
deriving DecidableEq

/-- `MapErrorCode`. -/
def mapErrorCode : HttpError → ErrorCode
  | .ok => .success
  | .invalidParam => .invalidParam
  | .invalidCall => .invalidCall
  | .invalidUrl => .invalidUrl
  | .setSeedFailed => .setSeedFailed
  | .caCertsWrong => .serverCAError
  | .sslConfigFailed => .sslConfigFailed
  | .sslSetupFailed => .sslSetupFailed
  | .sslHostNameWrong => .sslHostWrong
  | .handShakeFailed => .sslHandShakeFailed
  | .verifyCACertsFailed => .verifyCertFailed
  | .connectFailed => .connectFailed
  | .writeFaild => .writeFailed
  | .readFailed => .readFailed
  | .mallocFailed => .mallocFailed

/-- `MapErrorMessage`. -/
def mapErrorMessage : ErrorCode → Str
  | .success => str "Success (no error)"
  | .invalidParam => str "Invalid parameters, maybe some parameters are null"
  | .invalidCall => str "Invalid call stack"
  | .invalidUrl => str "The specified url is invalid"
  | .setSeedFailed => str "Internal error! Failed to set seed for random number"
  | .serverCAError => str "Server's CA certificates chain is invalid"
  | .sslConfigFailed => str "Failed to configure connection setting"
  | .sslSetupFailed => str "SSL setup failed"
  | .sslHostWrong => str "SSL set host name failed"
  | .sslHandShakeFailed => str "Handshake with the server failed"
  | .verifyCertFailed => str "Verify server's certificates failed"
  | .connectFailed => str "HTTP connection failed"
  | .writeFailed => str "Send data to tje server failed"
  | .readFailed => str "Read data from the server failed"
  | .mallocFailed => str "Internal error! Failed to malloc memory"

/-- `Error`. -/
structure ClientError where
  code : ErrorCode
  msg : Str
  internal : Str
deriving DecidableEq

/-- How a call of the client ends. A response is handed over with the parser's state. -/
inductive ClientEnd (S : Type) where
  | aborted
  | waiting
  | failed (error : ClientError)
  | response (read : Option (ReadEnd S)) (error : ClientError)

/-- The calls to the network and how the call of the client ends. -/
structure ClientCall (S : Type) where
  events : List NetEvent
  result : ClientEnd S

/-- The headers as `SendRequest` hands them on. -/
def headerLines (headers : TypeHeaders) (contentType : Str) : List Str :=
  (headers.items.map fun item => item.1 ++ (str ": " ++ item.2)) ++
    if contentType.isEmpty then [] else [str "Content-Type: " ++ contentType]

/-- The parameters as `SendRequest` hands them on. -/
def paramTexts (params : List (Str × Str)) : List Str :=
  params.map fun item => item.1 ++ '=' :: item.2

/-- What `SendRequest` has when it is ready for the network. -/
def Client.prepared (c : Client) (ndebug : Bool) (io : ExchangeIo) (method path : Str)
    (headers : TypeHeaders) (params : List (Str × Str)) (body contentType : Str) : Prepared :=
  let client := HttpClient.make c.host c.port c.serverCa
  if method = str "GET" then
    client.prepare ndebug io (str "GET") path (headerLines headers contentType)
      (paramTexts params) []
  else client.prepare ndebug io (str "POST") path (headerLines headers contentType) [] body

/-- The call of `HttpClient` that `SendRequest` makes. -/
def Client.exchange (c : Client) (ndebug : Bool) (io : ExchangeIo) (parser : ResponseParser S)
    (method path : Str) (headers : TypeHeaders) (params : List (Str × Str))
    (body contentType : Str) : Exchange S :=
  let client := HttpClient.make c.host c.port c.serverCa
  if method = str "GET" then
    client.get ndebug io parser path (headerLines headers contentType) (paramTexts params)
  else client.post ndebug io parser path (headerLines headers contentType) body

/-- `SendRequest`. -/
def Client.sendRequest (c : Client) (ndebug : Bool) (io : ExchangeIo) (parser : ResponseParser S)
    (method path : Str) (headers : TypeHeaders) (params : List (Str × Str))
    (body contentType : Str) : ClientCall S :=
  if path.isEmpty then
    ⟨[], .failed ⟨.invalidParam, str "Path must be provided.", []⟩⟩
  else
    let e := c.exchange ndebug io parser method path headers params body contentType
    ⟨e.events,
      match e.result with
      | .aborted => .aborted
      | .waiting => .waiting
      | .finished ret read =>
          if ret.code ≠ .ok then
            .failed ⟨mapErrorCode ret.code, mapErrorMessage (mapErrorCode ret.code), ret.msg⟩
          else .response read ⟨.success, str "OK", str "Success"⟩⟩

/-- What is known of a prepared request: an error is no success, and a request that is ready was
written from a URL that parses. -/
def Prepared.From (text : Str) (ndebug : Bool) (method : Str) (headers : List Str) (body : Str) :
    Prepared → Prop
  | .aborted => True
  | .failed result => result.code ≠ .ok
  | .ready url isHttps request =>
      parseUrl ndebug text = some url ∧ url.valid = true ∧
        isHttps = decide (url.url.scheme = str "https") ∧
        request = initRequest method url headers body

theorem HttpClient.prepare_from (c : HttpClient) (ndebug : Bool) (io : ExchangeIo)
    (method path : Str) (headers params : List Str) (body : Str) :
    (c.prepare ndebug io method path headers params body).From (c.initUrl path params) ndebug method
      headers body := by
  unfold HttpClient.prepare
  simp only
  cases hparse : parseUrl ndebug (c.initUrl path params) with
  | none => exact trivial
  | some url =>
      simp only
      -- the checks in the order of the code; each that fails ends in an error
      by_cases hvalid : url.valid = false
      · rw [if_pos hvalid]
        exact (by simp : HttpError.invalidUrl ≠ .ok)
      rw [if_neg hvalid]
      by_cases hscheme : url.url.scheme ≠ str "http" ∧ url.url.scheme ≠ str "https"
      · rw [if_pos hscheme]
        exact (by simp : HttpError.invalidUrl ≠ .ok)
      rw [if_neg hscheme]
      cases hinit : initContext io c.serverCa (url.url.scheme = str "https") with
      | none => exact ⟨hparse, Bool.not_eq_false _ ▸ hvalid, rfl, rfl⟩
      | some error => exact initContext_error hinit

/-- The method that `SendRequest` sends. -/
def sentMethod (method : Str) : Str := if method = str "GET" then str "GET" else str "POST"

/-- The parameters that `SendRequest` sends: only a `GET` has them. -/
def sentParams (method : Str) (params : List (Str × Str)) : List Str :=
  if method = str "GET" then paramTexts params else []

/-- The body that `SendRequest` sends: a `GET` has none. -/
def sentBody (method body : Str) : Str := if method = str "GET" then [] else body

/-- The text of the URL that `SendRequest` reads. -/
def Client.urlText (c : Client) (method path : Str) (params : List (Str × Str)) : Str :=
  (HttpClient.make c.host c.port c.serverCa).initUrl path (sentParams method params)

theorem Client.prepared_eq (c : Client) (ndebug : Bool) (io : ExchangeIo) (method path : Str)
    (headers : TypeHeaders) (params : List (Str × Str)) (body contentType : Str) :
    c.prepared ndebug io method path headers params body contentType =
      (HttpClient.make c.host c.port c.serverCa).prepare ndebug io (sentMethod method) path
        (headerLines headers contentType) (sentParams method params) (sentBody method body) := by
  simp only [Client.prepared, sentMethod, sentParams, sentBody]
  by_cases hm : method = str "GET"
  · simp only [if_pos hm]
  · simp only [if_neg hm]

/-- What `SendRequest` has when it is ready for the network. -/
theorem Client.prepared_ready {c : Client} {ndebug : Bool} {io : ExchangeIo} {method path : Str}
    {headers : TypeHeaders} {params : List (Str × Str)} {body contentType : Str} {url : HttpUrl}
    {isHttps : Bool} {request : Str}
    (h : c.prepared ndebug io method path headers params body contentType =
      .ready url isHttps request) :
    parseUrl ndebug ((HttpClient.make c.host c.port c.serverCa).initUrl path
      (sentParams method params)) = some url ∧ url.valid = true ∧
    isHttps = decide (url.url.scheme = str "https") ∧
    request = initRequest (sentMethod method) url (headerLines headers contentType)
      (sentBody method body) := by
  rw [Client.prepared_eq] at h
  have hfrom := HttpClient.prepare_from (HttpClient.make c.host c.port c.serverCa) ndebug io
    (sentMethod method) path (headerLines headers contentType) (sentParams method params)
    (sentBody method body)
  rw [h] at hfrom
  exact hfrom

/-- The exchange that `SendRequest` makes is the one of the request it has prepared. -/
theorem Client.exchange_eq (c : Client) (ndebug : Bool) (io : ExchangeIo)
    (parser : ResponseParser S) (method path : Str) (headers : TypeHeaders)
    (params : List (Str × Str)) (body contentType : Str) :
    c.exchange ndebug io parser method path headers params body contentType =
      (c.prepared ndebug io method path headers params body contentType).execute io parser := by
  simp only [Client.exchange, Client.prepared, HttpClient.get, HttpClient.post,
    HttpClient.executeRequest]
  by_cases hm : method = str "GET"
  · simp only [if_pos hm]
  · simp only [if_neg hm]

/-- An error of a request that is not ready is not a success. -/
theorem Client.prepared_failed {c : Client} {ndebug : Bool} {io : ExchangeIo} {method path : Str}
    {headers : TypeHeaders} {params : List (Str × Str)} {body contentType : Str}
    {result : HttpResult}
    (h : c.prepared ndebug io method path headers params body contentType = .failed result) :
    result.code ≠ .ok := by
  rw [Client.prepared_eq] at h
  have hfrom := HttpClient.prepare_from (HttpClient.make c.host c.port c.serverCa) ndebug io
    (sentMethod method) path (headerLines headers contentType) (sentParams method params)
    (sentBody method body)
  rw [h] at hfrom
  exact hfrom

/-- `DoRequest` connects once, to the host and port of its URL. -/
theorem doRequest_connects {io : ExchangeIo} {parser : ResponseParser S} {url : HttpUrl}
    {isHttps : Bool} {request : Str} {toHttps : Bool} {hostname port : Str} :
    .connect toHttps hostname port ∈ (doRequest io parser url isHttps request).events ↔
      toHttps = isHttps ∧ hostname = url.url.hostname ∧ port = url.port := by
  simp only [doRequest]
  by_cases hconnect : io.connect ≠ 0
  · simp [if_pos hconnect]
  · simp only [if_neg hconnect]
    rcases (if isHttps = true then tlsConnect io else some none) with - | (- | error)
    all_goals simp

/-- **What reaches the network.** A call of `SendRequest` that reaches the network has prepared a
request, and connects to the host and port of its URL. -/
theorem Client.sendRequest_reaches {c : Client} {ndebug : Bool} {io : ExchangeIo}
    {parser : ResponseParser S} {method path : Str} {headers : TypeHeaders}
    {params : List (Str × Str)} {body contentType : Str}
    (h : (c.sendRequest ndebug io parser method path headers params body contentType).events ≠ []) :
    path ≠ [] ∧ ∃ url isHttps request,
      c.prepared ndebug io method path headers params body contentType =
        .ready url isHttps request ∧
      (c.sendRequest ndebug io parser method path headers params body contentType).events =
        (doRequest io parser url isHttps request).events := by
  simp only [Client.sendRequest] at h ⊢
  cases path with
  | nil => exact absurd rfl h
  | cons first rest =>
      simp only [List.isEmpty_cons, Bool.false_eq_true, if_false, Client.exchange_eq] at h ⊢
      refine ⟨by simp, ?_⟩
      rcases hprepared : c.prepared ndebug io method (first :: rest) headers params body contentType
        with - | result | ⟨url, isHttps, request⟩
      · rw [hprepared] at h
        exact absurd rfl h
      · rw [hprepared] at h
        exact absurd rfl h
      · exact ⟨url, isHttps, request, rfl, rfl⟩

end Ssgx.Http
