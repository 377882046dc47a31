import Ssgx.Http.Json

/-!
# Line ends in stored headers and parameters

`SetHeader` and `SetParam` look for CR and LF before they store a name and a value. `HasCRLF` stops
at the first NUL, so a line end behind an embedded NUL is not seen; and `SetParam` stores the pair
where one of the two texts passes. Everything else that stores a header or a parameter (the
decoders, the setters of whole responses) goes through these two.

`stored_clean_iff` says of every sequence of calls when no line end is ever stored.
-/

set_option autoImplicit false

namespace Ssgx.Http

open Ssgx.Support

/-- A text without CR and LF. -/
def CleanText (s : Str) : Prop := '\r' ∉ s ∧ '\n' ∉ s

/-- A name and a value without CR and LF. -/
def CleanItem (item : Str × Str) : Prop := CleanText item.1 ∧ CleanText item.2

instance (s : Str) : Decidable (CleanText s) := inferInstanceAs (Decidable (_ ∧ _))

instance (item : Str × Str) : Decidable (CleanItem item) := inferInstanceAs (Decidable (_ ∧ _))

/-- A text with a CR or LF behind its first NUL, where `HasCRLF` does not look. -/
def HidesLineEnd (s : Str) : Prop := '\r' ∈ behind nul s ∨ '\n' ∈ behind nul s

/-- A character other than the separator is in a text exactly when it is in one of its parts. -/
theorem mem_iff_parts {c ch : Char} (h : ch ≠ c) (text : Str) :
    ch ∈ text ↔ ch ∈ upTo c text ∨ ch ∈ behind c text := by
  by_cases hmem : c ∈ text
  · conv_lhs => rw [← upTo_behind hmem]
    rw [List.mem_append, List.mem_cons]
    simp [h]
  · rw [upTo_of_not_mem hmem, behind_of_not_mem hmem]
    simp

/-- **What the scan misses.** A text is clean exactly when it passes the scan and hides no line end.
-/
theorem cleanText_iff (s : Str) : CleanText s ↔ hasCRLF s = false ∧ ¬ HidesLineEnd s := by
  have hscan : hasCRLF s = false ↔ ¬ ('\r' ∈ upTo nul s ∨ '\n' ∈ upTo nul s) := by
    rw [← hasCRLF_eq, Bool.not_eq_true]
  rw [hscan, CleanText, HidesLineEnd, mem_iff_parts (c := nul) (by decide) s,
    mem_iff_parts (c := nul) (by decide) s]
  tauto

/-! ## One insertion -/

/-- `SetHeader` does not store a hidden line end: the name is there already, a text fails the check,
or neither hides one. -/
def HeaderHarmless (items : List (Str × Str)) (item : Str × Str) : Prop :=
  Keyed.find lower item.1 items = none → headerPasses item = true →
    ¬ HidesLineEnd item.1 ∧ ¬ HidesLineEnd item.2

/-- `SetParam` does not store a line end: the name is there already, or both texts fail the check,
or both pass it and neither hides one. -/
def ParamHarmless (items : List (Str × Str)) (item : Str × Str) : Prop :=
  Keyed.find id item.1 items = none →
    (hasCRLF item.1 = true ∧ hasCRLF item.2 = true) ∨
      (headerPasses item = true ∧ ¬ HidesLineEnd item.1 ∧ ¬ HidesLineEnd item.2)

theorem headerHarmless_iff (items : List (Str × Str)) (item : Str × Str) :
    HeaderHarmless items item ↔ (Keyed.Enters lower headerPasses items item → CleanItem item) := by
  simp only [HeaderHarmless, Keyed.Enters, CleanItem, headerPasses]
  rw [cleanText_iff, cleanText_iff]
  cases hasCRLF item.1 <;> cases hasCRLF item.2 <;> simp

theorem paramHarmless_iff (items : List (Str × Str)) (item : Str × Str) :
    ParamHarmless items item ↔ (Keyed.Enters id paramPasses items item → CleanItem item) := by
  simp only [ParamHarmless, Keyed.Enters, CleanItem, headerPasses, paramPasses]
  rw [cleanText_iff, cleanText_iff]
  cases hasCRLF item.1 <;> cases hasCRLF item.2 <;> simp

/-- All headers are clean after a run of `SetHeader` exactly when they were before and no call of it
stores a line end. -/
theorem headers_clean_iff (entries items : List (Str × Str)) :
    (∀ item ∈ runFrom (Keyed.put lower headerPasses) items entries, CleanItem item) ↔
      (∀ item ∈ items, CleanItem item) ∧
        Along (Keyed.put lower headerPasses) HeaderHarmless items entries := by
  rw [Keyed.forall_mem_putAll_iff, along_congr headerHarmless_iff]

/-- All parameters are clean after a run of `SetParam` exactly when they were before and no call of
it stores a line end. -/
theorem params_clean_iff (entries items : List (Str × Str)) :
    (∀ item ∈ runFrom (Keyed.put id paramPasses) items entries, CleanItem item) ↔
      (∀ item ∈ items, CleanItem item) ∧
        Along (Keyed.put id paramPasses) ParamHarmless items entries := by
  rw [Keyed.forall_mem_putAll_iff, along_congr paramHarmless_iff]

/-! ## Requests -/

/-- The calls on a request that may store a header or a parameter. -/
inductive RequestCall where
  | setHeader (key val : Str)
  | setHeaderInt (key : Str) (val : Int)
  | setParam (key val : Str)
  | setParamInt (key : Str) (val : Int)
  | fromJsonStr (text : Str)

namespace Request

/-- The request after a call. A decoder that throws leaves what it has stored. -/
def call (parse : JsonParser) (r : Request) : RequestCall → Request
  | .setHeader key val => r.setHeader key val
  | .setHeaderInt key val => r.setHeaderInt key val
  | .setParam key val => r.setParam key val
  | .setParamInt key val => r.setParamInt key val
  | .fromJsonStr text => (fromJsonStr parse text r).2

/-- The headers that a call hands to `SetHeader`, in their order. -/
def headersOf (parse : JsonParser) : RequestCall → List (Str × Str)
  | .setHeader key val => [(key, val)]
  | .setHeaderInt key val => [(key, toText val)]
  | .fromJsonStr text => ((parse (upTo nul text)).map headerEntries).getD []
  | _ => []

/-- The parameters that a call hands to `SetParam`, in their order. -/
def paramsOf (parse : JsonParser) : RequestCall → List (Str × Str)
  | .setParam key val => [(key, val)]
  | .setParamInt key val => [(key, toText val)]
  | .fromJsonStr text => ((parse (upTo nul text)).map paramEntries).getD []
  | _ => []

/-- A call is a run of `SetHeader` and a run of `SetParam`. -/
theorem maps_call (parse : JsonParser) (r : Request) (c : RequestCall) :
    maps (r.call parse c) =
      (runFrom (Keyed.put lower headerPasses) (maps r).1 (headersOf parse c),
        runFrom (Keyed.put id paramPasses) (maps r).2 (paramsOf parse c)) := by
  cases c with
  | setHeader key val => exact Prod.ext (TypeHeaders.items_set r.headers key val) rfl
  | setHeaderInt key val => exact Prod.ext (TypeHeaders.items_set r.headers key (toText val)) rfl
  | setParam key val =>
      exact Prod.ext (congrArg TypeHeaders.items (headers_setParam r key val))
        (params_setParam r key val)
  | setParamInt key val =>
      exact Prod.ext (congrArg TypeHeaders.items (headers_setParam r key (toText val)))
        (params_setParam r key (toText val))
  | fromJsonStr text =>
      simp only [call, headersOf, paramsOf]
      cases hparse : parse (upTo nul text) with
      | none =>
          rw [fromJsonStr_of_none hparse]
          rfl
      | some root =>
          rw [fromJsonStr_of_some hparse]
          exact (decode_spec root r).2

/-- No stored header or parameter has a CR or LF in its name or value. -/
def Clean (r : Request) : Prop :=
  (∀ item ∈ r.headers.items, CleanItem item) ∧ ∀ item ∈ r.params.items, CleanItem item

/-- No `SetHeader` and no `SetParam` that a call comes to stores a line end. -/
def Harmless (parse : JsonParser) (r : Request) (c : RequestCall) : Prop :=
  Along (Keyed.put lower headerPasses) HeaderHarmless r.headers.items (headersOf parse c) ∧
    Along (Keyed.put id paramPasses) ParamHarmless r.params.items (paramsOf parse c)

theorem clean_call_iff {parse : JsonParser} {r : Request} {c : RequestCall} (h : r.Clean) :
    (r.call parse c).Clean ↔ Harmless parse r c := by
  obtain ⟨hheaders, hparams⟩ := Prod.mk.injEq .. ▸ maps_call parse r c
  simp only [Clean]
  rw [hheaders, hparams, headers_clean_iff, params_clean_iff]
  exact and_congr (and_iff_right h.1) (and_iff_right h.2)

theorem clean_fresh : fresh.Clean := by
  constructor
  · intro item hmem
    exact absurd hmem List.not_mem_nil
  · intro item hmem
    exact absurd hmem List.not_mem_nil

/-- **Line ends in requests.** In a sequence of calls on a fresh request the headers and parameters
are clean behind every call exactly when every call is harmless in the state it is made in. -/
theorem clean_calls_iff (parse : JsonParser) (calls : List RequestCall) :
    Along (call parse) (fun r c => (r.call parse c).Clean) fresh calls ↔
      Along (call parse) (Harmless parse) fresh calls :=
  along_invariant_iff (fun _ _ h => clean_call_iff h) clean_fresh calls

end Request

/-! ## Responses -/

/-- The calls on a response that may store a header. -/
inductive ResponseCall where
  | setHeader (key val : Str)
  | setHeaderInt (key : Str) (val : Int)
  | fromJsonStrWithoutBody (text : Str)
  | setRespBuffer (s : Option Str) (contentType : Str) (status : Int)
  | setResp (s contentType : Str) (status : Int)
  | setRespRedirect (url : Str) (status : Int)
  | setResp404NotFound
  | setResp500InternalServerError
  | setResp403Forbidden
  | setResp204NoContent

namespace Response

/-- The response after a call. A decoder that throws leaves what it has stored. -/
def call (parse : JsonParser) (r : Response) : ResponseCall → Response
  | .setHeader key val => r.setHeader key val
  | .setHeaderInt key val => r.setHeaderInt key val
  | .fromJsonStrWithoutBody text => (fromJsonStrWithoutBody parse text r).2
  | .setRespBuffer s contentType status => r.setRespBuffer s contentType status
  | .setResp s contentType status => r.setResp s contentType status
  | .setRespRedirect url status => r.setRespRedirect url status
  | .setResp404NotFound => r.setResp404NotFound
  | .setResp500InternalServerError => r.setResp500InternalServerError
  | .setResp403Forbidden => r.setResp403Forbidden
  | .setResp204NoContent => r.setResp204NoContent

/-- The headers that a call keeps before it stores any. -/
def keptBy (headers : TypeHeaders) : ResponseCall → TypeHeaders
  | .setRespBuffer .. => headers.erase (str "Content-Type")
  | .setResp .. => headers.erase (str "Content-Type")
  | _ => headers

/-- The type and the length that a setter hands to `SetHeader`. -/
def typeAndLength (contentType body : Str) : List (Str × Str) :=
  [(str "Content-Type", contentType), (str "Content-Length", decimal body.length)]

/-- The headers that a call hands to `SetHeader`, in their order. -/
def headersOf (parse : JsonParser) : ResponseCall → List (Str × Str)
  | .setHeader key val => [(key, val)]
  | .setHeaderInt key val => [(key, toText val)]
  | .fromJsonStrWithoutBody text => ((parse text).map headerEntries).getD []
  | .setRespBuffer s contentType _ => typeAndLength contentType (bufferBody s)
  | .setResp s contentType _ => typeAndLength contentType (bufferBody (some s))
  | .setRespRedirect url _ =>
      if url.isEmpty || hasCRLF url then []
      else (str "Location", url) :: typeAndLength pageType redirectPage
  | .setResp404NotFound => typeAndLength pageType notFoundPage
  | .setResp500InternalServerError => typeAndLength pageType serverErrorPage
  | .setResp403Forbidden => typeAndLength pageType forbiddenPage
  | .setResp204NoContent => [(str "Content-Length", decimal 0)]

/-- The type and the length are two calls of `SetHeader`. -/
theorem items_setTypeAndLength (headers : TypeHeaders) (contentType body : Str) :
    ((headers.set (str "Content-Type") contentType).set (str "Content-Length")
        (decimal body.length)).items =
      runFrom (Keyed.put lower headerPasses) headers.items (typeAndLength contentType body) := by
  rw [TypeHeaders.items_set, TypeHeaders.items_set]
  rfl

/-- A call drops the headers it does not keep and is a run of `SetHeader` from there. -/
theorem items_call (parse : JsonParser) (r : Response) (c : ResponseCall) :
    (r.call parse c).headers.items =
      runFrom (Keyed.put lower headerPasses) (keptBy r.headers c).items (headersOf parse c) := by
  cases c with
  | setHeader key val => exact TypeHeaders.items_set r.headers key val
  | setHeaderInt key val => exact TypeHeaders.items_set r.headers key (toText val)
  | fromJsonStrWithoutBody text =>
      simp only [call, headersOf, keptBy]
      cases hparse : parse text with
      | none =>
          rw [fromJsonStrWithoutBody_of_none hparse]
          rfl
      | some root =>
          rw [fromJsonStrWithoutBody_of_some hparse]
          exact (decode_spec root r).2
  | setRespBuffer s contentType status => exact items_setTypeAndLength _ contentType (bufferBody s)
  | setResp s contentType status => exact items_setTypeAndLength _ contentType (bufferBody (some s))
  | setRespRedirect url status =>
      simp only [call, headersOf, keptBy, setRespRedirect]
      by_cases hurl : (url.isEmpty || hasCRLF url) = true
      · rw [if_pos hurl, if_pos hurl]
        rfl
      · rw [if_neg hurl, if_neg hurl, runFrom, ← TypeHeaders.items_set]
        exact items_setTypeAndLength _ pageType redirectPage
  | setResp404NotFound => exact items_setTypeAndLength r.headers pageType notFoundPage
  | setResp500InternalServerError => exact items_setTypeAndLength r.headers pageType serverErrorPage
  | setResp403Forbidden => exact items_setTypeAndLength r.headers pageType forbiddenPage
  | setResp204NoContent => exact TypeHeaders.items_set r.headers _ _

/-- No stored header has a CR or LF in its name or value. -/
def Clean (r : Response) : Prop := ∀ item ∈ r.headers.items, CleanItem item

/-- No `SetHeader` that a call comes to stores a line end. -/
def Harmless (parse : JsonParser) (r : Response) (c : ResponseCall) : Prop :=
  Along (Keyed.put lower headerPasses) HeaderHarmless (keptBy r.headers c).items (headersOf parse c)

/-- What a call keeps of clean headers is clean. -/
theorem clean_keptBy {r : Response} (h : r.Clean) (c : ResponseCall) :
    ∀ item ∈ (keptBy r.headers c).items, CleanItem item := by
  intro item hmem
  cases c with
  | setRespBuffer s contentType status => exact h item (List.mem_of_mem_filter hmem)
  | setResp s contentType status => exact h item (List.mem_of_mem_filter hmem)
  | setHeader key val => exact h item hmem
  | setHeaderInt key val => exact h item hmem
  | fromJsonStrWithoutBody text => exact h item hmem
  | setRespRedirect url status => exact h item hmem
  | setResp404NotFound => exact h item hmem
  | setResp500InternalServerError => exact h item hmem
  | setResp403Forbidden => exact h item hmem
  | setResp204NoContent => exact h item hmem

theorem clean_call_iff {parse : JsonParser} {r : Response} {c : ResponseCall} (h : r.Clean) :
    (r.call parse c).Clean ↔ Harmless parse r c := by
  simp only [Clean]
  rw [items_call, headers_clean_iff]
  exact and_iff_right (clean_keptBy h c)

theorem clean_fresh : fresh.Clean := by
  intro item hmem
  exact absurd hmem List.not_mem_nil

/-- **Line ends in responses.** -/
theorem clean_calls_iff (parse : JsonParser) (calls : List ResponseCall) :
    Along (call parse) (fun r c => (r.call parse c).Clean) fresh calls ↔
      Along (call parse) (Harmless parse) fresh calls :=
  along_invariant_iff (fun _ _ h => clean_call_iff h) clean_fresh calls

end Response

/-- **When no line end is stored.** In every sequence of calls on a fresh request, and in every one
on a fresh response, the stored names and values are clean behind every call exactly when every call
is harmless in the state it is made in. -/
theorem stored_clean_iff (parse : JsonParser) :
    (∀ calls, Along (Request.call parse) (fun r c => (r.call parse c).Clean) Request.fresh calls ↔
      Along (Request.call parse) (Request.Harmless parse) Request.fresh calls) ∧
    ∀ calls, Along (Response.call parse) (fun r c => (r.call parse c).Clean) Response.fresh calls ↔
      Along (Response.call parse) (Response.Harmless parse) Response.fresh calls :=
  ⟨Request.clean_calls_iff parse, Response.clean_calls_iff parse⟩

/-- A fresh request stores a parameter whose value has a line end, and a fresh response stores a
header whose value has one behind a NUL. -/
theorem line_ends_stored :
    ¬ Along (Request.call fun _ => none) (fun r c => (r.call (fun _ => none) c).Clean) Request.fresh
        [.setParam (str "k") (str "a\r\nb")] ∧
      ¬ Along (Response.call fun _ => none) (fun r c => (r.call (fun _ => none) c).Clean)
        Response.fresh [.setHeader (str "k") (str "a\x00\r\nb")] := by
  constructor
  · rintro ⟨⟨-, hparams⟩, -⟩
    exact absurd (hparams (str "k", str "a\r\nb") (by decide)) (by decide)
  · rintro ⟨hheaders, -⟩
    exact absurd (hheaders (str "k", str "a\x00\r\nb") (by decide)) (by decide)

end Ssgx.Http
