import Ssgx.Http.JsonDump
import Ssgx.Http.OnMessage

/-!
# Requests on their way to a handler

`RequestHandler::handleRequest` on the untrusted side and `ssgx_ecall_http_on_message` behind it.
The method and the path of a request go into the enclave as C strings, its headers and parameters
inside two JSON texts, its body with its length; the enclave puts a `Request` together from them.
The answer comes back as a JSON text for the status and the headers, and a buffer for the body.

Poco and the JSON library are parameters: a request comes with what `Poco::URI` reads of its target,
and `JsonLibrary.Exact` says what is asked of the library. `handed_whole_iff` says which requests
come to the handler as they are.
-/

set_option autoImplicit false

namespace Ssgx.Http

open Ssgx.Support

/-! ## The untrusted side -/

/-- What `Poco::URI` reads of the target of a request, percent-decoded. -/
structure Uri where
  path : Str
  queryParameters : List (Str × Str)

/-- `HTTPServerRequest`. Its URI is missing where `Poco::URI` throws. -/
structure HttpServerRequest where
  method : Str
  uri : Option Uri
  headers : List (Str × Str)
  body : Str

/-- What the peer is sent. -/
structure SentResponse where
  status : Int
  headers : List (Str × Str)
  body : Str
deriving DecidableEq

/-- `HTTPServerResponse` before it is sent. -/
structure HttpServerResponse where
  status : Int
  headers : List (Str × Str)

namespace HttpServerResponse

/-- A response without headers. -/
def fresh : HttpServerResponse := ⟨200, []⟩

/-- `setStatus`. -/
def setStatus (response : HttpServerResponse) (status : Int) : HttpServerResponse :=
  { response with status := status }

/-- `set`. -/
def set (response : HttpServerResponse) (key val : Str) : HttpServerResponse :=
  { response with headers := Keyed.store lower response.headers (key, val) }

/-- `send`, with the text that is written to its stream. -/
def send (response : HttpServerResponse) (text : Str) : SentResponse :=
  ⟨response.status, response.headers, text⟩

/-- `sendBuffer`, which sets the length. -/
def sendBuffer (response : HttpServerResponse) (body : Str) : SentResponse :=
  (response.set (str "Content-Length") (decimal body.length)).send body

/-- A body with bytes is sent from its buffer, any other one by `send`. -/
def sendBody (response : HttpServerResponse) : Option Str → SentResponse
  | some body => if body.length > 0 then response.sendBuffer body else response.send []
  | none => response.send []

/-- The loop over the headers of the enclave; nothing where `get<std::string>()` throws. -/
def setAll (response : HttpServerResponse) : List (Str × Json) → Option HttpServerResponse
  | [] => some response
  | (key, value) :: rest =>
      match value.asText with
      | some text => (response.set key text).setAll rest
      | none => none

end HttpServerResponse

/-- What the enclave call gives back: whether it was made, its return value, and its buffers. -/
structure EcallReply where
  success : Bool
  ret : Int
  statusHeadersJson : Option Str
  body : Option Str

/-- `items()`: the members of an object, the elements of an array under their indices, and any other
document but null under an empty name. -/
def Json.items : Json → List (Str × Json)
  | .object members => members
  | .array elements => elements.zipIdx.map fun element => (decimal element.2, element.1)
  | .null => []
  | other => [([], other)]

namespace HttpServerRequest

/-- `req_params_json`. -/
def paramsDocument (uri : Uri) : Json :=
  Json.null.assign (str "params") (Json.null.assignAll uri.queryParameters)

/-- `req_headers_json`. -/
def headersDocument (request : HttpServerRequest) : Json :=
  Json.null.assign (str "headers") (Json.null.assignAll request.headers)

/-- The arguments of the enclave call as they arrive; nothing where `dump` throws. A string arrives
up to its first NUL, an empty buffer as a null pointer. -/
def message (lib : JsonLibrary) (serverId : Str) (request : HttpServerRequest) (uri : Uri) :
    Option Message := do
  let paramsJson ← lib.dump (paramsDocument uri)
  let headersJson ← lib.dump request.headersDocument
  some { serverId := some (upTo nul serverId)
         method := some (upTo nul request.method)
         path := some (upTo nul uri.path)
         paramsJson := some (upTo nul paramsJson)
         headersJson := some (upTo nul headersJson)
         body := if request.body.isEmpty then none else some request.body }

end HttpServerRequest

namespace RequestHandler

/-- An answer that the handler writes itself. -/
def failure (status : Int) (text : Str) : SentResponse :=
  (HttpServerResponse.fresh.setStatus status).send text

/-- The status that the handler takes from the document of the enclave. -/
def statusOf (root : Json) : Nat :=
  match root.member (str "status_code") with
  | some (.integer value) => if 0 ≤ value then (value % 65536).toNat else 500
  | _ => 500

/-- The answer with a document of the enclave; nothing where an exception leaves. -/
def forward (root : Json) (body : Option Str) : Option SentResponse := do
  let response := HttpServerResponse.fresh.setStatus (statusOf root)
  let response ←
    match root.member (str "headers") with
    | some headers => response.setAll headers.items
    | none => some response
  some (response.sendBody body)

/-- `handleRequest` behind the enclave call. -/
def answer (parse : JsonParser) (reply : EcallReply) : Option SentResponse :=
  if reply.success = false ∨ reply.ret ≠ 0 then
    some (failure 500 (str "Internal Server Error, failed to call enclave API."))
  else
    match reply.statusHeadersJson with
    | none => some (failure 500 (str "Internal Server Error, missing headers in response."))
    | some text =>
        match parse (upTo nul text) with
        | none => some (failure 500 (str "Internal Server Error, invalid headers in response."))
        | some root => forward root reply.body

/-- `RequestHandler::handleRequest`; nothing where an exception leaves. The callback is missing
where none is registered for the enclave. -/
def handleRequest (lib : JsonLibrary) (callback : Option (Message → EcallReply)) (serverId : Str)
    (request : HttpServerRequest) : Option SentResponse :=
  match request.uri with
  | none => some (failure 400 (str "Bad Request, invalid URL."))
  | some uri => do
      let m ← request.message lib serverId uri
      match callback with
      | none => some (failure 404 (str "Not Found: HttpOnMessageCallback."))
      | some call => answer lib.parse (call m)

end RequestHandler

/-! ## The trusted side -/

/-- What an allocation outside of the enclave gives: a buffer, a null pointer, or a pointer into the
enclave, for which it throws. -/
inductive Allocation where
  | buffer
  | null
  | inside
deriving DecidableEq

/-- The two allocations of a reply. -/
structure HostBuffers where
  text : Allocation
  body : Allocation

namespace EcallReply

/-- A reply without buffers. -/
def failed (ret : Int) : EcallReply := ⟨true, ret, none, none⟩

/-- A call that ends with an exception in the enclave. -/
def crashed : EcallReply := ⟨false, 0, none, none⟩

/-- The body of a response goes out behind its text. -/
def withBody (body : Str) (allocated : Allocation) (text : Str) : EcallReply :=
  if body.isEmpty then ⟨true, 0, some text, none⟩
  else
    match allocated with
    | .buffer => ⟨true, 0, some text, some body⟩
    | .null => failed (-8)
    | .inside => failed (-9)

/-- The results of `ssgx_ecall_http_on_message` for a response. `StrndupOutside` gives nothing for a
text with a NUL. -/
def ofResponse (lib : JsonLibrary) (buffers : HostBuffers) (r : Response) : EcallReply :=
  match r.toJsonStrWithoutBody lib with
  -- thrown by `dump`
  | none => failed (-9)
  | some text =>
      if (upTo nul text).length ≠ text.length then failed (-7)
      else
        match buffers.text with
        | .buffer => withBody r.body buffers.body text
        | .null => failed (-7)
        | .inside => failed (-9)

/-- The results of `ssgx_ecall_http_on_message` for what comes of a request; nothing came where
`ServerProcessBridge` has thrown. -/
def ofProcessed (lib : JsonLibrary) (buffers : HostBuffers) : Option Response → EcallReply
  | some r => ofResponse lib buffers r
  | none => failed (-9)

end EcallReply

variable {S : Type}

/-- `ssgx_ecall_http_on_message`. `process` is `ServerProcessBridge`. -/
def ssgxEcallHttpOnMessage (lib : JsonLibrary) (query : Str → Option S)
    (process : S → Request → Option Response) (buffers : HostBuffers) (m : Message) : EcallReply :=
  match prepareMessage lib.parse query m .fresh with
  | (.ok (.refused ret), _) => .failed ret
  | (.ok (.admitted server), r) => .ofProcessed lib buffers (process server r)
  | (.error _, _) => .crashed

/-- The server and the request that `ServerProcessBridge` is called with, where it is. -/
def RequestHandler.handed (lib : JsonLibrary) (query : Str → Option S) (serverId : Str)
    (request : HttpServerRequest) : Option (S × Request) := do
  let uri ← request.uri
  let m ← request.message lib serverId uri
  match prepareMessage lib.parse query m .fresh with
  | (.ok (.admitted server), r) => some (server, r)
  | _ => none

/-- A request is handed over exactly where its message is admitted. -/
theorem RequestHandler.handed_eq_some_iff {lib : JsonLibrary} {query : Str → Option S}
    {serverId : Str} {request : HttpServerRequest} {server : S} {r : Request} :
    handed lib query serverId request = some (server, r) ↔
      ∃ uri m, request.uri = some uri ∧ request.message lib serverId uri = some m ∧
        prepareMessage lib.parse query m .fresh = (.ok (.admitted server), r) := by
  simp only [handed]
  cases huri : request.uri with
  | none => simp
  | some uri =>
      cases hm : request.message lib serverId uri with
      | none => simp [hm]
      | some m =>
          simp only [Option.bind_eq_bind, Option.bind_some, hm, Option.some.injEq,
            exists_eq_left', exists_and_left]
          rcases hprepare : prepareMessage lib.parse query m .fresh with ⟨result, r'⟩
          rcases result with e | a
          · simp
          · cases a with
            | refused ret => simp
            | admitted server' => simp

/-- **From the listener to the handler and back.** A request that is handed over is answered with
what comes of the response to it. -/
theorem RequestHandler.handleRequest_of_handed {lib : JsonLibrary} {query : Str → Option S}
    {serverId : Str} {request : HttpServerRequest} {server : S} {r : Request}
    (h : handed lib query serverId request = some (server, r))
    (process : S → Request → Option Response) (buffers : HostBuffers) :
    handleRequest lib (some (ssgxEcallHttpOnMessage lib query process buffers)) serverId request =
      answer lib.parse (.ofProcessed lib buffers (process server r)) := by
  obtain ⟨uri, m, huri, hm, hprepare⟩ := handed_eq_some_iff.1 h
  have hcall : ssgxEcallHttpOnMessage lib query process buffers m =
      .ofProcessed lib buffers (process server r) := by
    simp only [ssgxEcallHttpOnMessage]
    rw [hprepare]
  simp only [handleRequest]
  rw [huri]
  simp only [hm, hcall, Option.bind_eq_bind, Option.bind_some]

/-! ## What arrives -/

/-- A document with one map. -/
theorem Json.holdsMap_single (key : Str) (items : List (Str × Str)) :
    (Json.null.assign key (Json.null.assignAll items)).HoldsMap key items := by
  simp only [Json.HoldsMap]
  cases items with
  | nil =>
      show Json.member key (.object [(key, .null)]) = none
      simp [Json.member, Keyed.find]
  | cons item rest =>
      rw [Json.assignAll_null (List.cons_ne_nil item rest)]
      show Json.member key (.object [(key, Json.ofTexts _)]) = some (Json.ofTexts _)
      simp [Json.member, Keyed.find, Json.ofTexts]

theorem Json.member_single_of_ne {key other : Str} (h : key ≠ other) (items : List (Str × Str)) :
    (Json.null.assign key (Json.null.assignAll items)).member other = none := by
  show Json.member other (.object [(key, _)]) = none
  simp [Json.member, Keyed.find, h]

/-- A member that is missing may be read as any kind. -/
theorem Json.memberIs_of_none {root : Json} {key : Str} (h : root.member key = none)
    {kind : Json → Bool} : root.memberIs kind key = true := by
  rw [memberIs, h]
  rfl

/-- A text of the library is decoded in full. -/
theorem readJson_of_exact {lib : JsonLibrary} {root : Json} {text : Str}
    (hdump : lib.dump root = some text) (hexact : lib.Exact root)
    (htyped : Request.WellTyped root) (r : Request) :
    readJson lib.parse (some (upTo nul text)) r =
      (.ok true, Request.takeParams root (Request.takeHeaders root
        (Request.takePath root (Request.takeMethod root r)))) := by
  obtain ⟨text', hdump', hnul, hparse⟩ := hexact
  obtain rfl : text = text' := Option.some.inj (hdump.symm.trans hdump')
  have hroot : lib.parse (upTo nul text) = some root := by rw [upTo_of_not_mem hnul, hparse]
  have hread := Request.fromJsonStr_of_some hroot r
  rw [Request.decode_of_wellTyped htyped] at hread
  rw [upTo_of_not_mem hnul]
  exact hread

/-- A document with a map of headers alone is decoded to its headers. -/
theorem takeAll_headers (items : List (Str × Str)) (hdistinct : Keyed.Distinct id items)
    (r : Request) :
    let root := Json.null.assign (str "headers") (Json.null.assignAll items)
    Request.WellTyped root ∧ (root.memberEntries (str "headers")).Perm items ∧
      Request.takeParams root (Request.takeHeaders root
        (Request.takePath root (Request.takeMethod root r))) = Request.takeHeaders root r := by
  intro root
  obtain ⟨hperm, hmap⟩ := (Json.holdsMap_single (str "headers") items).entries hdistinct
  have hnone : ∀ other, str "headers" ≠ other → root.member other = none := fun other hother =>
    Json.member_single_of_ne hother items
  refine ⟨⟨Json.memberIs_of_none (hnone _ (by decide)), Json.memberIs_of_none (hnone _ (by decide)),
    hmap, Json.memberIs_of_none (hnone _ (by decide))⟩, hperm, ?_⟩
  simp only [Request.takeMethod, Request.takePath, Request.takeParams, Json.memberEntries]
  rw [hnone _ (by decide), hnone _ (by decide), hnone _ (by decide)]
  rfl

/-- A document with a map of parameters alone is decoded to its parameters. -/
theorem takeAll_params (items : List (Str × Str)) (hdistinct : Keyed.Distinct id items)
    (r : Request) :
    let root := Json.null.assign (str "params") (Json.null.assignAll items)
    Request.WellTyped root ∧ (root.memberEntries (str "params")).Perm items ∧
      Request.takeParams root (Request.takeHeaders root
        (Request.takePath root (Request.takeMethod root r))) = Request.takeParams root r := by
  intro root
  obtain ⟨hperm, hmap⟩ := (Json.holdsMap_single (str "params") items).entries hdistinct
  have hnone : ∀ other, str "params" ≠ other → root.member other = none := fun other hother =>
    Json.member_single_of_ne hother items
  refine ⟨⟨Json.memberIs_of_none (hnone _ (by decide)), Json.memberIs_of_none (hnone _ (by decide)),
    Json.memberIs_of_none (hnone _ (by decide)), hmap⟩, hperm, ?_⟩
  simp only [Request.takeMethod, Request.takePath, Request.takeHeaders, Json.memberEntries]
  rw [hnone _ (by decide), hnone _ (by decide), hnone _ (by decide)]
  rfl

/-- The names and values of the headers and the parameters have no CR and LF. -/
structure HttpServerRequest.Clean (request : HttpServerRequest) (uri : Uri) : Prop where
  headers : ∀ item ∈ request.headers, CleanItem item
  params : ∀ item ∈ uri.queryParameters, CleanItem item

theorem CleanItem.headerPasses {item : Str × Str} (h : CleanItem item) :
    headerPasses item = true :=
  headerPasses_iff.2 ⟨((cleanText_iff _).1 h.1).1, ((cleanText_iff _).1 h.2).1⟩

theorem CleanItem.paramPasses {item : Str × Str} (h : CleanItem item) :
    paramPasses item = true := by
  simp only [Http.paramPasses]
  rw [((cleanText_iff _).1 h.1).1]
  rfl

/-- The request that the decoders leave holds the headers and the parameters of the message. -/
theorem maps_decoded {headers params : List (Str × Str)} (hheaders : Keyed.Distinct lower headers)
    (hparams : Keyed.Distinct id params) (hcleanHeaders : ∀ item ∈ headers, CleanItem item)
    (hcleanParams : ∀ item ∈ params, CleanItem item) :
    let headersRoot := Json.null.assign (str "headers") (Json.null.assignAll headers)
    let paramsRoot := Json.null.assign (str "params") (Json.null.assignAll params)
    let r := Request.takeParams paramsRoot (Request.takeHeaders headersRoot .fresh)
    r.headers.items.Perm headers ∧ r.params.items.Perm params ∧ r.body = [] := by
  intro headersRoot paramsRoot r
  obtain ⟨-, hpermHeaders, -⟩ := takeAll_headers headers (distinct_id_of_lower hheaders) .fresh
  obtain ⟨-, hpermParams, -⟩ := takeAll_params params hparams .fresh
  have hmaps : Request.maps r =
      (runFrom (Keyed.put lower headerPasses) [] (headersRoot.memberEntries (str "headers")),
        runFrom (Keyed.put id paramPasses) [] (paramsRoot.memberEntries (str "params"))) := by
    simp only [r, Request.takeParams, Request.takeHeaders]
    rw [Request.maps_storeAll_setParam, Request.maps_storeAll_setHeader]
    rfl
  have hitems : r.headers.items = _ ∧ r.params.items = _ := Prod.mk.inj hmaps
  rw [hitems.1, hitems.2,
    headers_restored hpermHeaders hheaders fun item h => (hcleanHeaders item h).headerPasses,
    params_restored hpermParams hparams fun item h => (hcleanParams item h).paramPasses]
  refine ⟨hpermHeaders, hpermParams, ?_⟩
  -- no setter touches the body
  have hkeptHeaders : ∀ (r : Request) (item : Str × Str),
      (r.setHeader item.1 item.2).body = r.body := fun _ _ => rfl
  have hkeptParams : ∀ (r : Request) (item : Str × Str),
      (r.setParam item.1 item.2).body = r.body := by
    intro r item
    simp only [Request.setParam]
    split_ifs
    · rfl
    · rfl
  exact (kept_runFrom hkeptParams _ _).trans (kept_runFrom hkeptHeaders _ _)

/-- A message that is admitted has been through both decoders and the lookup of its server. -/
theorem prepareMessage_admitted {parse : JsonParser} {query : Str → Option S} {m : Message}
    {server : S} {r r₁ r₂ : Request}
    (h : prepareMessage parse query m .fresh = (.ok (.admitted server), r))
    (hheaders : readJson parse m.headersJson .fresh = (.ok true, r₁))
    (hparams : readJson parse m.paramsJson r₁ = (.ok true, r₂)) : r = r₂.fill m := by
  simp only [prepareMessage] at h
  by_cases hid : isNonEmptyString m.serverId = false
  · rw [if_pos hid] at h
    cases h
  by_cases hmethod : isNonEmptyString m.method = false
  · rw [if_neg hid, if_pos hmethod] at h
    cases h
  by_cases hpath : isNonEmptyString m.path = false
  · rw [if_neg hid, if_neg hmethod, if_pos hpath] at h
    cases h
  rw [if_neg hid, if_neg hmethod, if_neg hpath, prepareNamed, Call.bind_of_ok hheaders,
    if_neg (by simp), Call.bind_of_ok hparams, if_neg (by simp)] at h
  cases hquery : query (m.serverId.getD []) with
  | none =>
      rw [hquery] at h
      cases h
  | some found =>
      rw [hquery] at h
      cases h
      rfl

/-- The texts of the message replace those of the request; its maps stay. -/
theorem Request.fill_parts (m : Message) (r : Request) :
    (r.fill m).method = m.method.getD [] ∧ (r.fill m).path = m.path.getD [] ∧
      (r.fill m).params = r.params ∧ (r.fill m).headers = r.headers := by
  simp only [Request.fill]
  cases m.body with
  | none => exact ⟨rfl, rfl, rfl, rfl⟩
  | some body =>
      simp only
      split_ifs
      · exact ⟨rfl, rfl, rfl, rfl⟩
      · exact ⟨rfl, rfl, rfl, rfl⟩

/-- The handler has the request of the listener. The maps have no order. -/
structure HttpServerRequest.Whole (request : HttpServerRequest) (uri : Uri) (r : Request) :
    Prop where
  method : r.method = request.method
  path : r.path = uri.path
  params : r.params.items.Perm uri.queryParameters
  headers : r.headers.items.Perm request.headers
  body : r.body = request.body

/-- **What is handed over.** The method and the path up to their first NUL, the rest as it came. -/
theorem handed_spec {lib : JsonLibrary} {query : Str → Option S} {serverId : Str}
    {request : HttpServerRequest} {uri : Uri} (huri : request.uri = some uri)
    (hheaders : Keyed.Distinct lower request.headers)
    (hparams : Keyed.Distinct id uri.queryParameters) (hclean : request.Clean uri)
    (hexactHeaders : lib.Exact request.headersDocument)
    (hexactParams : lib.Exact (HttpServerRequest.paramsDocument uri)) {server : S} {r : Request}
    (h : RequestHandler.handed lib query serverId request = some (server, r)) :
    r.method = upTo nul request.method ∧ r.path = upTo nul uri.path ∧
      r.params.items.Perm uri.queryParameters ∧ r.headers.items.Perm request.headers ∧
        r.body = request.body := by
  obtain ⟨uri', m, huri', hm, hprepare⟩ := RequestHandler.handed_eq_some_iff.1 h
  obtain rfl : uri = uri' := Option.some.inj (huri.symm.trans huri')
  obtain ⟨headersText, hheadersDump, -⟩ := id hexactHeaders
  obtain ⟨paramsText, hparamsDump, -⟩ := id hexactParams
  simp only [HttpServerRequest.message] at hm
  simp only [hheadersDump, hparamsDump, Option.bind_eq_bind, Option.bind_some,
    Option.some.injEq] at hm
  -- both texts are decoded in full, one into what the other has left
  obtain ⟨htypedHeaders, -, htakeHeaders⟩ :=
    takeAll_headers request.headers (distinct_id_of_lower hheaders) .fresh
  have hreadHeaders := readJson_of_exact hheadersDump hexactHeaders htypedHeaders .fresh
  obtain ⟨htypedParams, -, htakeParams⟩ := takeAll_params uri.queryParameters hparams
    (Request.takeHeaders request.headersDocument .fresh)
  have hreadParams := readJson_of_exact hparamsDump hexactParams htypedParams
    (Request.takeHeaders request.headersDocument .fresh)
  have hfill : r = Request.fill m (Request.takeParams (HttpServerRequest.paramsDocument uri)
      (Request.takeHeaders request.headersDocument .fresh)) := prepareMessage_admitted hprepare
    (by rw [← hm]; exact hreadHeaders.trans (congrArg (Prod.mk _) htakeHeaders))
    (by rw [← hm]; exact hreadParams.trans (congrArg (Prod.mk _) htakeParams))
  obtain ⟨hmapHeaders, hmapParams, hbody⟩ :=
    maps_decoded hheaders hparams hclean.headers hclean.params
  obtain ⟨hmethod, hpath, hparamsKept, hheadersKept⟩ := Request.fill_parts m
    (Request.takeParams (HttpServerRequest.paramsDocument uri)
      (Request.takeHeaders request.headersDocument .fresh))
  rw [hfill]
  refine ⟨?_, ?_, ?_, ?_, ?_⟩
  · rw [hmethod, ← hm]
    rfl
  · rw [hpath, ← hm]
    rfl
  · rw [hparamsKept]
    exact hmapParams
  · rw [hheadersKept]
    exact hmapHeaders
  · rw [← hm]
    simp only [Request.fill]
    cases hempty : request.body with
    | nil => exact hbody
    | cons ch rest => rfl

/-- **Which requests come to the handler as they are.** Where the names of the headers and of the
parameters are distinct and without line ends, the handler has the request of the listener exactly
when neither the method nor the decoded path has a NUL. -/
theorem handed_whole_iff (lib : JsonLibrary) (query : Str → Option S) (serverId : Str)
    (request : HttpServerRequest) (uri : Uri) (huri : request.uri = some uri)
    (hheaders : Keyed.Distinct lower request.headers)
    (hparams : Keyed.Distinct id uri.queryParameters) (hclean : request.Clean uri)
    (hexactHeaders : lib.Exact request.headersDocument)
    (hexactParams : lib.Exact (HttpServerRequest.paramsDocument uri)) (server : S) (r : Request)
    (h : RequestHandler.handed lib query serverId request = some (server, r)) :
    request.Whole uri r ↔ nul ∉ request.method ∧ nul ∉ uri.path := by
  obtain ⟨hmethod, hpath, hparamsKept, hheadersKept, hbody⟩ :=
    handed_spec huri hheaders hparams hclean hexactHeaders hexactParams h
  constructor
  · intro hwhole
    rw [← hwhole.method, ← hwhole.path, hmethod, hpath]
    exact ⟨not_mem_upTo nul request.method, not_mem_upTo nul uri.path⟩
  · rintro ⟨hmethodNul, hpathNul⟩
    exact ⟨by rw [hmethod, upTo_of_not_mem hmethodNul], by rw [hpath, upTo_of_not_mem hpathNul],
      hparamsKept, hheadersKept, hbody⟩

/-- A request with a header, a parameter and a body. -/
theorem handed_whole_iff_plain :
    ∃ r : Request, HttpServerRequest.Whole
      ⟨str "POST", some ⟨str "/a", [(str "q", str "1")]⟩, [(str "Host", str "h")], str "ok"⟩
      ⟨str "/a", [(str "q", str "1")]⟩ r :=
  ⟨_, (handed_whole_iff
    (.ofDocuments
      [(.object [(str "headers", .object [(str "Host", .string (str "h"))])],
          str "\x7b\"headers\":\x7b\"Host\":\"h\"\x7d\x7d"),
        (.object [(str "params", .object [(str "q", .string (str "1"))])],
          str "\x7b\"params\":\x7b\"q\":\"1\"\x7d\x7d")])
    (fun _ => some ()) (str "1_u")
    ⟨str "POST", some ⟨str "/a", [(str "q", str "1")]⟩, [(str "Host", str "h")], str "ok"⟩
    ⟨str "/a", [(str "q", str "1")]⟩ rfl (by decide) (by decide)
    ⟨by decide, by decide⟩ ⟨_, rfl, by decide, rfl⟩ ⟨_, rfl, by decide, rfl⟩ () _ rfl).2
    (by decide)⟩

/-- The path `/a%00b` comes to the handler as `/a`. -/
theorem path_cut_at_nul :
    let lib := JsonLibrary.ofDocuments
      [(.object [(str "headers", .null)], str "\x7b\"headers\":null\x7d"),
        (.object [(str "params", .null)], str "\x7b\"params\":null\x7d")]
    let uri : Uri := ⟨str "/a\x00b", []⟩
    let request : HttpServerRequest := ⟨str "GET", some uri, [], []⟩
    request.Clean uri ∧ lib.Exact request.headersDocument ∧
      lib.Exact (HttpServerRequest.paramsDocument uri) ∧
      ∃ r, RequestHandler.handed lib (fun _ => some ()) (str "1_u") request = some ((), r) ∧
        r.path = str "/a" ∧ ¬ request.Whole uri r := by
  intro lib uri request
  refine ⟨⟨by decide, by decide⟩, ⟨_, rfl, by decide, rfl⟩, ⟨_, rfl, by decide, rfl⟩, _, rfl,
    rfl, ?_⟩
  intro hwhole
  exact absurd hwhole.path (by decide)

end Ssgx.Http
