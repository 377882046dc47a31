import Ssgx.Http.HeaderSafety

/-!
# Encoding requests and responses

`Request::ToJsonStr` and `Response::ToJsonStrWithoutBody`, and what the decoders make of their
texts. An encoder builds a document member by member; an object keeps its members in the order of
their names.

`dump` and `parse` are parameters (`JsonLibrary`). What is assumed of them is that a document with
valid texts is dumped and parsed back (`JsonLibrary.Exact`).
-/

set_option autoImplicit false

namespace Ssgx.Http

open Ssgx.Support

/-! ## The library -/

/-- `dump` and `parse` of the JSON library; nothing where they throw. -/
structure JsonLibrary where
  dump : Json → Option Str
  parse : JsonParser

/-- What the library promises for a document whose texts are valid UTF-8: its text has no NUL, and
the parse undoes the dump. -/
def JsonLibrary.Exact (lib : JsonLibrary) (doc : Json) : Prop :=
  ∃ text, lib.dump doc = some text ∧ nul ∉ text ∧ lib.parse text = some doc

namespace Json

/-- The order of the members of an object. -/
def nameBefore (a b : Str) : Bool := decide (a < b)

/-- `doc[key] = value`. It makes an object of null. -/
def assign (doc : Json) (key : Str) (value : Json) : Json :=
  match doc with
  | .object members => .object (Keyed.assign nameBefore members (key, value))
  | .null => .object [(key, value)]
  -- thrown; no document below is of another kind
  | other => other

/-- `doc[key] = text` for each of the items. -/
def assignAll (doc : Json) (items : List (Str × Str)) : Json :=
  runFrom (fun doc item => doc.assign item.1 (.string item.2)) doc items

/-- `doc[key] = map` unless the map is empty. -/
def assignMap (doc : Json) (key : Str) (items : List (Str × Str)) : Json :=
  if items.isEmpty then doc else doc.assign key (null.assignAll items)

end Json

/-! ## The encoders -/

/-- The document of `Request::ToJsonStr`. -/
def Request.document (r : Request) : Json :=
  let doc := Json.null.assign (str "method") (.string r.method)
  let doc := doc.assign (str "path") (.string r.path)
  let doc := doc.assignMap (str "headers") r.headers.items
  doc.assignMap (str "params") r.params.items

/-- `Request::ToJsonStr`: nothing where it throws. -/
def Request.toJsonStr (lib : JsonLibrary) (r : Request) : Option Str := lib.dump r.document

/-- The document of `Response::ToJsonStrWithoutBody`. -/
def Response.document (r : Response) : Json :=
  let doc := Json.null.assign (str "status_code") (.integer r.statusCode)
  doc.assignMap (str "headers") r.headers.items

/-- `Response::ToJsonStrWithoutBody`: nothing where it throws. -/
def Response.toJsonStrWithoutBody (lib : JsonLibrary) (r : Response) : Option Str :=
  lib.dump r.document

/-! ## The members of a document -/

namespace Json

/-- An object of texts. -/
def ofTexts (items : List (Str × Str)) : Json :=
  .object (items.map fun item => (item.1, .string item.2))

theorem assign_ofTexts (items : List (Str × Str)) (item : Str × Str) :
    (ofTexts items).assign item.1 (.string item.2) =
      ofTexts (Keyed.assign nameBefore items item) := by
  simp only [ofTexts, assign]
  rw [Keyed.map_assign]

theorem assignAll_ofTexts (items new : List (Str × Str)) :
    (ofTexts items).assignAll new = ofTexts (runFrom (Keyed.assign nameBefore) items new) := by
  induction new generalizing items with
  | nil => rfl
  | cons item new ih =>
      show ((ofTexts items).assign item.1 (.string item.2)).assignAll new = _
      rw [assign_ofTexts, ih]
      rfl

/-- The first of some items makes an object of null. -/
theorem assignAll_null {items : List (Str × Str)} (h : items ≠ []) :
    null.assignAll items = ofTexts (runFrom (Keyed.assign nameBefore) [] items) := by
  obtain ⟨item, rest, rfl⟩ := List.exists_cons_of_ne_nil h
  exact assignAll_ofTexts [item] rest

theorem textsOf_ofTexts (items : List (Str × Str)) :
    textsOf (items.map fun item => (item.1, .string item.2)) = items := by
  induction items with
  | nil => rfl
  | cons item rest ih =>
      simp only [List.map_cons, textsOf, asText]
      rw [ih]

theorem isStringMap_ofTexts (items : List (Str × Str)) : (ofTexts items).isStringMap = true := by
  simp [ofTexts, isStringMap, isString, asText]

/-- **The entries of a map that was encoded** are the items of the map. -/
theorem entries_assignAll {items : List (Str × Str)} (h : Keyed.Distinct id items) :
    (null.assignAll items).entries.Perm items ∧ (null.assignAll items).isStringMap = true := by
  rcases eq_or_ne items [] with rfl | hne
  · exact ⟨List.Perm.refl _, rfl⟩
  · rw [assignAll_null hne]
    refine ⟨?_, isStringMap_ofTexts _⟩
    show (textsOf _).Perm items
    rw [textsOf_ofTexts]
    have hperm : (runFrom (Keyed.assign nameBefore) [] items).Perm ([] ++ items) :=
      Keyed.assignAll_perm h
    exact hperm

end Json

/-- A member of a document is the texts of a map, or missing where the map is empty. -/
def Json.HoldsMap (root : Json) (key : Str) (items : List (Str × Str)) : Prop :=
  root.member key = if items.isEmpty then none else some (Json.null.assignAll items)

/-- The branch on such a member stores the texts of the map. -/
theorem Json.HoldsMap.entries {root : Json} {key : Str} {items : List (Str × Str)}
    (h : root.HoldsMap key items) (hdistinct : Keyed.Distinct id items) :
    (root.memberEntries key).Perm items ∧ root.memberIs Json.isStringMap key = true := by
  simp only [Json.memberEntries, Json.memberIs]
  rw [h]
  obtain ⟨hperm, hmap⟩ := Json.entries_assignAll hdistinct
  cases items with
  | nil => exact ⟨List.Perm.refl _, rfl⟩
  | cons item rest => exact ⟨hperm, hmap⟩

/-- Two texts and two maps, each under a name of its own. -/
theorem Request.member_document (r : Request) :
    r.document.member (str "method") = some (.string r.method) ∧
      r.document.member (str "path") = some (.string r.path) ∧
      r.document.HoldsMap (str "headers") r.headers.items ∧
      r.document.HoldsMap (str "params") r.params.items := by
  simp only [Request.document, Json.assignMap, Json.HoldsMap]
  rcases hh : r.headers.items with _ | ⟨header, headers⟩
  · rcases hp : r.params.items with _ | ⟨param, params⟩
    · exact ⟨rfl, rfl, rfl, rfl⟩
    · rw [Json.assignAll_null (List.cons_ne_nil param params)]
      exact ⟨rfl, rfl, rfl, rfl⟩
  · rw [Json.assignAll_null (List.cons_ne_nil header headers)]
    rcases hp : r.params.items with _ | ⟨param, params⟩
    · exact ⟨rfl, rfl, rfl, rfl⟩
    · rw [Json.assignAll_null (List.cons_ne_nil param params)]
      exact ⟨rfl, rfl, rfl, rfl⟩

theorem Response.member_document (r : Response) :
    r.document.member (str "status_code") = some (.integer r.statusCode) ∧
      r.document.HoldsMap (str "headers") r.headers.items := by
  simp only [Response.document, Json.assignMap, Json.HoldsMap]
  rcases hh : r.headers.items with _ | ⟨header, headers⟩
  · exact ⟨rfl, rfl⟩
  · rw [Json.assignAll_null (List.cons_ne_nil header headers)]
    exact ⟨rfl, rfl⟩

/-! ## What the decoders restore -/

/-- Names that differ in lower case differ. -/
theorem distinct_id_of_lower {items : List (Str × Str)} (h : Keyed.Distinct lower items) :
    Keyed.Distinct id items := by
  have hnodup : (items.map fun item => lower item.1).Nodup := h
  have hmap : (items.map fun item => lower item.1) = (items.map fun item => item.1).map lower := by
    rw [List.map_map]
    rfl
  rw [hmap] at hnodup
  exact List.Nodup.of_map lower hnodup

/-- Headers that pass the check go into an empty map as they are. -/
theorem headers_restored {entries headers : List (Str × Str)} (hperm : entries.Perm headers)
    (hdistinct : Keyed.Distinct lower headers)
    (hpass : ∀ item ∈ headers, headerPasses item = true) :
    runFrom (Keyed.put lower headerPasses) [] entries = entries := by
  have hentries : Keyed.Distinct lower ([] ++ entries) := Keyed.Distinct.perm hdistinct hperm
  exact Keyed.putAll_of_distinct hentries fun item hitem => hpass item (hperm.mem_iff.1 hitem)

theorem params_restored {entries params : List (Str × Str)} (hperm : entries.Perm params)
    (hdistinct : Keyed.Distinct id params)
    (hpass : ∀ item ∈ params, paramPasses item = true) :
    runFrom (Keyed.put id paramPasses) [] entries = entries := by
  have hentries : Keyed.Distinct id ([] ++ entries) := Keyed.Distinct.perm hdistinct hperm
  exact Keyed.putAll_of_distinct hentries fun item hitem => hpass item (hperm.mem_iff.1 hitem)

namespace Request

/-- The same method, path, headers and parameters; the maps have no order. -/
structure SameData (r s : Request) : Prop where
  method : r.method = s.method
  path : r.path = s.path
  headers : r.headers.items.Perm s.headers.items
  params : r.params.items.Perm s.params.items

/-- What is stored has passed the checks. -/
structure Passing (r : Request) : Prop where
  headers : ∀ item ∈ r.headers.items, headerPasses item = true
  params : ∀ item ∈ r.params.items, paramPasses item = true

theorem texts_takeHeaders (root : Json) (r : Request) :
    (takeHeaders root r).method = r.method ∧ (takeHeaders root r).path = r.path := by
  have hmethod : ∀ (r : Request) (item : Str × Str),
      (r.setHeader item.1 item.2).method = r.method :=
    fun _ _ => rfl
  have hpath : ∀ (r : Request) (item : Str × Str), (r.setHeader item.1 item.2).path = r.path :=
    fun _ _ => rfl
  exact ⟨kept_runFrom hmethod r _, kept_runFrom hpath r _⟩

theorem texts_takeParams (root : Json) (r : Request) :
    (takeParams root r).method = r.method ∧ (takeParams root r).path = r.path := by
  have htexts : ∀ (r : Request) (item : Str × Str), (r.setParam item.1 item.2).method = r.method ∧
      (r.setParam item.1 item.2).path = r.path := by
    intro r item
    simp only [setParam]
    split_ifs
    · exact ⟨rfl, rfl⟩
    · exact ⟨rfl, rfl⟩
  exact ⟨kept_runFrom (fun r item => (htexts r item).1) r _,
    kept_runFrom (fun r item => (htexts r item).2) r _⟩

/-- **What the decoder stores of a document** with the kinds that it reads, in a fresh request. -/
theorem decode_fresh {root : Json} (h : WellTyped root) :
    ∃ r, decode root fresh = (.ok ⟨⟩, r) ∧
      r.method = ((root.member (str "method")).bind Json.asText).getD [] ∧
      r.path = ((root.member (str "path")).bind Json.asText).getD [] ∧
      r.headers.items =
        runFrom (Keyed.put lower headerPasses) [] (root.memberEntries (str "headers")) ∧
      r.params.items =
        runFrom (Keyed.put id paramPasses) [] (root.memberEntries (str "params")) := by
  refine ⟨_, decode_of_wellTyped h fresh, ?_, ?_, ?_⟩
  · rw [(texts_takeParams root _).1, (texts_takeHeaders root _).1]
    simp only [takePath, takeMethod]
    cases (root.member (str "method")).bind Json.asText <;>
      cases (root.member (str "path")).bind Json.asText <;> rfl
  · rw [(texts_takeParams root _).2, (texts_takeHeaders root _).2]
    simp only [takePath, takeMethod]
    cases (root.member (str "method")).bind Json.asText <;>
      cases (root.member (str "path")).bind Json.asText <;> rfl
  · have hmaps : maps (takeParams root (takeHeaders root (takePath root (takeMethod root fresh)))) =
        (runFrom (Keyed.put lower headerPasses) [] (root.memberEntries (str "headers")),
          runFrom (Keyed.put id paramPasses) [] (root.memberEntries (str "params"))) := by
      simp only [takeParams, takeHeaders]
      rw [maps_storeAll_setParam, maps_storeAll_setHeader, maps_takePath, maps_takeMethod]
      rfl
    exact ⟨congrArg Prod.fst hmaps, congrArg Prod.snd hmaps⟩

/-- **A request whose data pass the checks comes back.** -/
theorem fromJsonStr_toJsonStr {lib : JsonLibrary} {r : Request} (hpassing : r.Passing)
    (hexact : lib.Exact r.document) :
    ∃ text s, r.toJsonStr lib = some text ∧
      fromJsonStr lib.parse text fresh = (.ok true, s) ∧ s.SameData r := by
  obtain ⟨text, hdump, hnul, hparse⟩ := hexact
  obtain ⟨hmethod, hpath, hheaders, hparams⟩ := member_document r
  obtain ⟨hheaders, hheadersMap⟩ := hheaders.entries (distinct_id_of_lower r.headers.distinct)
  obtain ⟨hparams, hparamsMap⟩ := hparams.entries r.params.distinct
  have htyped : WellTyped r.document := by
    refine ⟨?_, ?_, hheadersMap, hparamsMap⟩
    · rw [Json.memberIs, hmethod]
      rfl
    · rw [Json.memberIs, hpath]
      rfl
  obtain ⟨s, hdecode, hsMethod, hsPath, hsHeaders, hsParams⟩ := decode_fresh htyped
  refine ⟨text, s, hdump, ?_, ?_⟩
  · rw [fromJsonStr_of_some (by rw [upTo_of_not_mem hnul, hparse]) fresh, hdecode]
    rfl
  · constructor
    · rw [hsMethod, hmethod]
      rfl
    · rw [hsPath, hpath]
      rfl
    · rw [hsHeaders, headers_restored hheaders r.headers.distinct hpassing.headers]
      exact hheaders
    · rw [hsParams, params_restored hparams r.params.distinct hpassing.params]
      exact hparams

end Request

namespace Response

/-- The same status and headers. -/
structure SameData (r s : Response) : Prop where
  statusCode : r.statusCode = s.statusCode
  headers : r.headers.items.Perm s.headers.items

/-- The status is a number that `unsigned short` holds, and what is stored has passed the check. -/
structure Passing (r : Response) : Prop where
  statusCode : 0 ≤ r.statusCode ∧ r.statusCode < 65536
  headers : ∀ item ∈ r.headers.items, headerPasses item = true

/-- **What the decoder stores of a document** with the kinds that it reads, in a fresh response. -/
theorem decode_fresh {root : Json} (h : WellTyped root) :
    ∃ r, decode root fresh = (.ok ⟨⟩, r) ∧
      r.statusCode =
        (((root.member (str "status_code")).bind Json.asNumber).map Int.ofNat).getD 500 ∧
      r.headers.items =
        runFrom (Keyed.put lower headerPasses) [] (root.memberEntries (str "headers")) := by
  refine ⟨_, decode_of_wellTyped h fresh, ?_, ?_⟩
  · have hkept : ∀ (r : Response) (item : Str × Str),
        (r.setHeader item.1 item.2).statusCode = r.statusCode := fun _ _ => rfl
    refine (kept_runFrom hkept (takeStatus root fresh) _).trans ?_
    simp only [takeStatus]
    cases (root.member (str "status_code")).bind Json.asNumber <;> rfl
  · have hkept : ∀ (status : Nat) (r : Response), (r.setStatusCode status).headers = r.headers :=
      fun _ _ => rfl
    have hfresh : (takeStatus root fresh).headers = fresh.headers := Json.handOn_keeps hkept _ fresh
    simp only [takeHeaders]
    rw [headers_storeAll, hfresh]
    rfl

/-- **A response whose data pass the checks comes back.** -/
theorem fromJsonStrWithoutBody_toJsonStrWithoutBody {lib : JsonLibrary} {r : Response}
    (hpassing : r.Passing) (hexact : lib.Exact r.document) :
    ∃ text s, r.toJsonStrWithoutBody lib = some text ∧
      fromJsonStrWithoutBody lib.parse text fresh = (.ok true, s) ∧ s.SameData r := by
  obtain ⟨text, hdump, -, hparse⟩ := hexact
  obtain ⟨hstatus, hheaders⟩ := member_document r
  obtain ⟨hheaders, hheadersMap⟩ := hheaders.entries (distinct_id_of_lower r.headers.distinct)
  have htyped : WellTyped r.document := by
    refine ⟨?_, hheadersMap⟩
    rw [Json.memberIs, hstatus]
    rfl
  obtain ⟨s, hdecode, hsStatus, hsHeaders⟩ := decode_fresh htyped
  refine ⟨text, s, hdump, ?_, ?_⟩
  · rw [fromJsonStrWithoutBody_of_some hparse fresh, hdecode]
    rfl
  · constructor
    · rw [hsStatus, hstatus]
      show ((r.statusCode % 65536).toNat : Int) = r.statusCode
      have := hpassing.statusCode
      omega
    · rw [hsHeaders, headers_restored hheaders r.headers.distinct hpassing.headers]
      exact hheaders

end Response

/-! ## Requests and responses that were built -/

/-- The enumerators of `HttpStatusCode`. -/
def httpStatusCodes : List Int :=
  [100, 101, 102, 103, 200, 201, 202, 203, 204, 205, 206, 207, 208, 226, 300, 301, 302, 303, 304,
    305, 306, 307, 308, 400, 401, 402, 403, 404, 405, 406, 407, 408, 409, 410, 411, 412, 413, 414,
    415, 416, 417, 418, 421, 422, 423, 424, 425, 426, 428, 429, 431, 451, 500, 501, 502, 503, 504,
    505, 506, 507, 508, 510, 511]

/-- An enumerator of `HttpStatusCode`. -/
abbrev HttpStatusCode := { status : Int // status ∈ httpStatusCodes }

/-- The setters that build a request. -/
inductive RequestSetter where
  | setMethod (method : Str)
  | setPath (path : Str)
  | setHeader (key val : Str)
  | setHeaderInt (key : Str) (val : Int)
  | setParam (key val : Str)
  | setParamInt (key : Str) (val : Int)

/-- The setters that build the status and the headers of a response. -/
inductive ResponseSetter where
  | setStatusCode (status : HttpStatusCode)
  | setHeader (key val : Str)
  | setHeaderInt (key : Str) (val : Int)

/-- The request after a setter. -/
def Request.build (r : Request) : RequestSetter → Request
  | .setMethod method => r.setMethod method
  | .setPath path => r.setPath path
  | .setHeader key val => r.setHeader key val
  | .setHeaderInt key val => r.setHeaderInt key val
  | .setParam key val => r.setParam key val
  | .setParamInt key val => r.setParamInt key val

/-- The response after a setter. -/
def Response.build (r : Response) : ResponseSetter → Response
  | .setStatusCode status => r.setStatusCode status.1
  | .setHeader key val => r.setHeader key val
  | .setHeaderInt key val => r.setHeaderInt key val

/-- Headers that pass the check are still such behind `SetHeader`. -/
theorem TypeHeaders.passes_set {headers : TypeHeaders}
    (h : ∀ item ∈ headers.items, headerPasses item = true) (key val : Str) :
    ∀ item ∈ (headers.set key val).items, headerPasses item = true := by
  intro item hmem
  rw [items_set] at hmem
  rcases Keyed.put_guarded hmem with hold | hpasses
  · exact h item hold
  · exact hpasses

/-- One setter of a request. -/
theorem Request.passing_build {r : Request} (h : r.Passing) (setter : RequestSetter) :
    (r.build setter).Passing := by
  have hheader : ∀ key val, (r.setHeader key val).Passing := fun key val =>
    ⟨TypeHeaders.passes_set h.headers key val, h.params⟩
  have hparam : ∀ key val, (r.setParam key val).Passing := by
    intro key val
    constructor
    · rw [headers_setParam]
      exact h.headers
    · intro item hmem
      rw [params_setParam] at hmem
      rcases Keyed.put_guarded hmem with hold | hpasses
      · exact h.params item hold
      · exact hpasses
  cases setter with
  | setMethod method => exact ⟨h.headers, h.params⟩
  | setPath path => exact ⟨h.headers, h.params⟩
  | setHeader key val => exact hheader key val
  | setHeaderInt key val => exact hheader key (toText val)
  | setParam key val => exact hparam key val
  | setParamInt key val => exact hparam key (toText val)

/-- One setter of a response. -/
theorem Response.passing_build {r : Response} (h : r.Passing) (setter : ResponseSetter) :
    (r.build setter).Passing := by
  have hheader : ∀ key val, (r.setHeader key val).Passing := fun key val =>
    ⟨h.statusCode, TypeHeaders.passes_set h.headers key val⟩
  cases setter with
  | setStatusCode status =>
      have hrange : ∀ code ∈ httpStatusCodes, 0 ≤ code ∧ code < 65536 := by decide
      exact ⟨hrange status.1 status.2, h.headers⟩
  | setHeader key val => exact hheader key val
  | setHeaderInt key val => exact hheader key (toText val)

theorem Request.passing_built (setters : List RequestSetter) :
    (runFrom Request.build .fresh setters).Passing := by
  have hstep : ∀ (r : Request) (setter : RequestSetter), True → r.Passing →
      (r.build setter).Passing := fun _ setter _ h => passing_build h setter
  have hfresh : Request.fresh.Passing :=
    ⟨fun _ h => absurd h List.not_mem_nil, fun _ h => absurd h List.not_mem_nil⟩
  exact invariant_runFrom hstep (along_of_forall (fun _ _ => trivial) _ setters) hfresh

theorem Response.passing_built (setters : List ResponseSetter) :
    (runFrom Response.build .fresh setters).Passing := by
  have hstep : ∀ (r : Response) (setter : ResponseSetter), True → r.Passing →
      (r.build setter).Passing := fun _ setter _ h => passing_build h setter
  have hfresh : Response.fresh.Passing :=
    ⟨by decide, fun _ h => absurd h List.not_mem_nil⟩
  exact invariant_runFrom hstep (along_of_forall (fun _ _ => trivial) _ setters) hfresh

/-- **What was built comes back.** A fresh request decodes the text of any request that was built by
setters into the same method, path, headers and parameters, and a fresh response that of any
response into the same status and headers. -/
theorem built_comes_back (lib : JsonLibrary) :
    (∀ setters : List RequestSetter,
      lib.Exact (runFrom Request.build .fresh setters).document →
      ∃ text s, (runFrom Request.build .fresh setters).toJsonStr lib = some text ∧
        Request.fromJsonStr lib.parse text .fresh = (.ok true, s) ∧
        s.SameData (runFrom Request.build .fresh setters)) ∧
    ∀ setters : List ResponseSetter,
      lib.Exact (runFrom Response.build .fresh setters).document →
      ∃ text s, (runFrom Response.build .fresh setters).toJsonStrWithoutBody lib = some text ∧
        Response.fromJsonStrWithoutBody lib.parse text .fresh = (.ok true, s) ∧
        s.SameData (runFrom Response.build .fresh setters) :=
  ⟨fun setters hexact => Request.fromJsonStr_toJsonStr (Request.passing_built setters) hexact,
    fun setters hexact =>
      Response.fromJsonStrWithoutBody_toJsonStrWithoutBody (Response.passing_built setters) hexact⟩

/-- The names of the members of an object. -/
def Json.names : Json → List Str
  | .object members => members.map Prod.fst
  | _ => []

/-- What the library does with some documents, told apart by the names of their members. -/
def JsonLibrary.ofDocuments (documents : List (Json × Str)) : JsonLibrary where
  dump doc := (documents.find? fun document => document.1.names = doc.names).map Prod.snd
  parse text := (documents.find? fun document => document.2 = text).map Prod.fst

/-- A request whose header is set twice, the second time in another case, and a page that was not
found. -/
theorem built_comes_back_sample :
    let lib := JsonLibrary.ofDocuments
      [(.object [(str "headers", .object [(str "X", .string (str "y"))]),
          (str "method", .string (str "GET")), (str "path", .string (str "/a"))],
        str "\x7b\"headers\":\x7b\"X\":\"y\"\x7d,\"method\":\"GET\",\"path\":\"/a\"\x7d"),
        (.object [(str "status_code", .integer 404)], str "\x7b\"status_code\":404\x7d")]
    let setters : List RequestSetter :=
      [.setHeader (str "X") (str "y"), .setPath (str "/a"), .setHeader (str "x") (str "z"),
        .setMethod (str "GET")]
    let responseSetters : List ResponseSetter := [.setStatusCode ⟨404, by decide⟩]
    (∃ text s, (runFrom Request.build .fresh setters).toJsonStr lib = some text ∧
        Request.fromJsonStr lib.parse text .fresh = (.ok true, s) ∧
        s.SameData (runFrom Request.build .fresh setters)) ∧
      ∃ text s, (runFrom Response.build .fresh responseSetters).toJsonStrWithoutBody lib =
          some text ∧
        Response.fromJsonStrWithoutBody lib.parse text .fresh = (.ok true, s) ∧
        s.SameData (runFrom Response.build .fresh responseSetters) :=
  ⟨(built_comes_back _).1 _ ⟨_, rfl, by decide, rfl⟩,
    (built_comes_back _).2 _ ⟨_, rfl, by decide, rfl⟩⟩

end Ssgx.Http
