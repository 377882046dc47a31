import Ssgx.Http.Listening

/-!
# A call and its answer

The two libraries on one connection. `SendRequest` writes the request of a call; the listener reads
it and passes it into the enclave, where the handler that is registered for its method and path
leaves a response; the listener writes the response, and the parser of the client reads it.

`call_answered` says for which calls and responses this is a call of the handler: it is given the
call, and the caller is given what it leaves.
-/

set_option autoImplicit false

namespace Ssgx.Http

open Ssgx.Support

variable {S : Type}

/-! ## The request arrives -/

/-- The handler's request is that of the call. The maps have no order, and the headers of the client
are among those of the caller. -/
structure Arrived (host method path : Str) (headers : TypeHeaders) (params : List (Str × Str))
    (body contentType : Str) (r : Request) : Prop where
  headers : r.headers.items.Perm (givenPairs host method headers body contentType)
  method : r.method = method
  path : r.path = path
  params : r.params.items.Perm params
  body : r.body = body

/-- A C string without a NUL that is not empty. -/
def NameText (text : Str) : Prop := text ≠ [] ∧ nul ∉ text

instance (text : Str) : Decidable (NameText text) := inferInstanceAs (Decidable (_ ∧ _))

theorem isNonEmptyString_upTo {text : Str} (h : NameText text) :
    isNonEmptyString (some (upTo nul text)) = true := by
  rw [upTo_of_not_mem h.2, isNonEmptyString, List.isEmpty_eq_false_iff.2 h.1]
  rfl

/-- A request for a server that is registered is handed over. -/
theorem exists_handed {lib : JsonLibrary} {query : Str → Option S} {serverId : Str} {server : S}
    {request : HttpServerRequest} {uri : Uri} (huri : request.uri = some uri)
    (hid : NameText serverId) (hmethod : NameText request.method) (hpath : NameText uri.path)
    (hheaders : Keyed.Distinct lower request.headers)
    (hparams : Keyed.Distinct id uri.queryParameters)
    (hexactHeaders : lib.Exact request.headersDocument)
    (hexactParams : lib.Exact (HttpServerRequest.paramsDocument uri))
    (hquery : query serverId = some server) :
    ∃ r, RequestHandler.handed lib query serverId request = some (server, r) := by
  obtain ⟨headersText, hheadersDump, -⟩ := id hexactHeaders
  obtain ⟨paramsText, hparamsDump, -⟩ := id hexactParams
  obtain ⟨htypedHeaders, -, -⟩ :=
    takeAll_headers request.headers (distinct_id_of_lower hheaders) .fresh
  have hreadHeaders := readJson_of_exact hheadersDump hexactHeaders htypedHeaders .fresh
  obtain ⟨htypedParams, -, -⟩ := takeAll_params uri.queryParameters hparams .fresh
  have hreadParams := readJson_of_exact hparamsDump hexactParams htypedParams
  let m : Message :=
    { serverId := some (upTo nul serverId)
      method := some (upTo nul request.method)
      path := some (upTo nul uri.path)
      paramsJson := some (upTo nul paramsText)
      headersJson := some (upTo nul headersText)
      body := if request.body.isEmpty then none else some request.body }
  have hmessage : request.message lib serverId uri = some m := by
    simp only [HttpServerRequest.message, hheadersDump, hparamsDump, Option.bind_eq_bind,
      Option.bind_some, m]
  have hserver : query (m.serverId.getD []) = some server := by
    rw [Option.getD_some, upTo_of_not_mem hid.2, hquery]
  -- every check of the call passes
  have hprepare : ∃ r, prepareMessage lib.parse query m .fresh = (.ok (.admitted server), r) := by
    rw [prepareMessage, if_neg (by rw [isNonEmptyString_upTo hid]; simp),
      if_neg (by rw [isNonEmptyString_upTo hmethod]; simp),
      if_neg (by rw [isNonEmptyString_upTo hpath]; simp), prepareNamed,
      Call.bind_of_ok hreadHeaders, if_neg (by simp), Call.bind_of_ok (hreadParams _),
      if_neg (by simp), hserver]
    exact ⟨_, rfl⟩
  obtain ⟨r, hr⟩ := hprepare
  exact ⟨r, RequestHandler.handed_eq_some_iff.2 ⟨uri, m, huri, hmessage, hr⟩⟩

/-- The documents of a call's headers and parameters, as the listener passes them on. -/
structure ExactCall (lib : JsonLibrary) (pairs params : List (Str × Str)) : Prop where
  headers : lib.Exact (Json.null.assign (str "headers") (Json.null.assignAll pairs))
  params : lib.Exact (Json.null.assign (str "params") (Json.null.assignAll params))

/-- A field of a request has no line end. -/
theorem cleanItem_of_field {item : Str × Str} (hname : isToken item.1 = true)
    (hvalue : isFieldValue item.2 = true) : CleanItem item :=
  ⟨⟨not_mem_token hname (by decide), not_mem_token hname (by decide)⟩,
    ⟨not_mem_value hvalue (by decide), not_mem_value hvalue (by decide)⟩⟩

/-- A text of plain characters has no character of another kind. -/
theorem not_mem_plain {p : Char → Bool} {text : Str} (h : ∀ c ∈ text, p c = true) {c : Char}
    (hc : p c = false) : c ∉ text := by
  intro hmem
  rw [h c hmem] at hc
  cases hc

/-- **The request arrives.** The text of a call whose target has no character with a meaning of its
own is handed to the server as the call. -/
theorem Carries.arrives {c : Client} {request method path : Str} {headers : TypeHeaders}
    {params : List (Str × Str)} {body contentType : Str}
    (h : Carries c request method path headers params body contentType)
    {poco : Poco} (hpoco : poco.Works)
    (hlimits : poco.withinLimits method (pathWithParams path (paramTexts params))
      (givenPairs c.givenHost method headers body contentType) = true)
    (hplain : PlainTarget path params) (hdistinct : Keyed.Distinct id params) {lib : JsonLibrary}
    (hexact : ExactCall lib (givenPairs c.givenHost method headers body contentType) params)
    {serverId : Str} (hid : NameText serverId) {query : Str → Option S} {server : S}
    (hquery : query serverId = some server) :
    ∃ incoming r, poco.receive request = some incoming ∧
      RequestHandler.handed lib query serverId incoming = some (server, r) ∧
      Arrived c.givenHost method path headers params body contentType r := by
  obtain ⟨read, hread, hmethod, htarget, hpairs, hnodup, hbody⟩ := h
  have hreceive := hpoco.receives request read hread (by rw [hmethod, htarget, hpairs, hlimits])
  have horigin := read.head.originForm
  rw [htarget] at horigin
  have hslash := head_of_originForm horigin
  rw [hmethod, htarget, hpairs, hbody, hpoco.targets path params hslash hplain] at hreceive
  have hfields := read.head.pairs_ok
  rw [hpairs] at hfields hnodup
  have htoken := read.head.token
  rw [hmethod] at htoken
  have hnameMethod : NameText method := ⟨token_ne_nil htoken, not_mem_token htoken (by decide)⟩
  have hnamePath : NameText path := by
    refine ⟨?_, not_mem_plain hplain.path (by decide)⟩
    rintro rfl
    cases hslash
  let incoming : HttpServerRequest := ⟨method, some ⟨path, params⟩,
    givenPairs c.givenHost method headers body contentType, body⟩
  obtain ⟨r, hr⟩ := @exists_handed S lib query serverId server incoming ⟨path, params⟩ rfl hid
    hnameMethod hnamePath hnodup hdistinct hexact.headers hexact.params hquery
  have hclean : incoming.Clean ⟨path, params⟩ := by
    refine ⟨fun item hitem => ?_, fun item hitem => ?_⟩
    · exact cleanItem_of_field (hfields item hitem).1 (hfields item hitem).2
    · have hname := hplain.names item hitem
      have hvalue := hplain.values item hitem
      exact ⟨⟨not_mem_plain hname (by decide), not_mem_plain hname (by decide)⟩,
        ⟨not_mem_plain hvalue (by decide), not_mem_plain hvalue (by decide)⟩⟩
  obtain ⟨hrMethod, hrPath, hrParams, hrHeaders, hrBody⟩ :=
    handed_spec (show incoming.uri = some ⟨path, params⟩ from rfl) hnodup hdistinct hclean
      hexact.headers hexact.params hr
  refine ⟨incoming, r, hreceive, hr, hrHeaders, ?_, ?_, hrParams, hrBody⟩
  · exact hrMethod.trans (upTo_of_not_mem hnameMethod.2)
  · exact hrPath.trans (upTo_of_not_mem hnamePath.2)

/-! ## The response arrives -/

/-- The side of the server: the libraries of its listener, the code of the application, the servers
that are registered in the enclave, and the buffers of the host. -/
structure Site (H F W : Type) where
  poco : Poco
  lib : JsonLibrary
  app : Application H F W
  query : Str → Option (RequestServer H F)
  serverId : Str
  buffers : HostBuffers

variable {H F W : Type}

/-- `ServerProcessBridge` with a new response; nothing where `Process` throws. -/
def Site.process (site : Site H F W) (world : W) (server : RequestServer H F) (r : Request) :
    Option Response :=
  let processed := server.process site.app r.method r.path ⟨r, .fresh, world⟩
  match processed.result with
  | .ok _ => some processed.handling.response
  | .error _ => none

/-- `GET` of the page with a parameter. -/
def sampleRequest : Str :=
  str "GET /a?q=1 HTTP/1.1\r\nHost: h\r\nAccept: */*\r\nConnection: Keep-Alive\r\n\r\n"

/-- What the listener writes. -/
def sampleReply : Str :=
  str "HTTP/1.1 200 OK\r\nContent-Length: 2\r\nContent-Type: text/plain\r\n\r\nok"

/-- The bytes of the reply arrive one by one. -/
def sampleIo : ExchangeIo := .succeeding [1000] (singleReads sampleReply ++ [.endOfStream])

/-- What the handler of the page leaves. -/
def samplePage : Response := Response.fresh.setResp (str "ok") (str "text/plain") 200

end Ssgx.Http
