import Ssgx.Http.ResponseSetters
import Ssgx.Support.LastGiven

/-!
# The body that was set last

A request and a response have a `SetBody` of a buffer and one of a string, and a response has the
setters of whole responses, which define the body. Whatever else happens to the object, its body is
the one that the last of these gave. `Response::SetBody` of an empty buffer is the exception: where
its sibling of the request assigns the empty string, it has a comparison, and leaves the body of
before. A redirection to a URL that is empty or does not pass `HasCRLF` does nothing, and gives no
body.
-/

set_option autoImplicit false

namespace Ssgx.Http

open Ssgx.Support

/-! ## Requests -/

/-- `Request::SetBody` of a buffer. -/
def Request.setBodyBuffer (r : Request) (buf : Option Str) : Request :=
  match buf with
  | some text => if text.length > 0 then { r with body := text } else { r with body := [] }
  | none => { r with body := [] }

/-- `Request::SetHeaders`. -/
def Request.setHeaders (r : Request) (headers : TypeHeaders) : Request :=
  { r with headers := headers }

/-- `Request::SetParams`. -/
def Request.setParams (r : Request) (params : TypeParams) : Request := { r with params := params }

/-- The operations on a request. -/
inductive RequestOp where
  | call (c : RequestCall)
  | setMethod (method : Str)
  | setPath (path : Str)
  | setHeaders (headers : TypeHeaders)
  | setParams (params : TypeParams)
  | setBodyBuffer (buf : Option Str)
  | setBody (body : Str)

/-- The request after an operation. -/
def Request.op (parse : JsonParser) (r : Request) : RequestOp → Request
  | .call c => r.call parse c
  | .setMethod method => r.setMethod method
  | .setPath path => r.setPath path
  | .setHeaders headers => r.setHeaders headers
  | .setParams params => r.setParams params
  | .setBodyBuffer buf => r.setBodyBuffer buf
  | .setBody body => r.setBody body

/-- The bytes of a buffer: none for a null buffer. -/
def bufferBytes (buf : Option Str) : Str := buf.getD []

/-- The body that an operation on a request is given. -/
def RequestOp.given : RequestOp → Option Str
  | .setBodyBuffer buf => some (bufferBytes buf)
  | .setBody body => some body
  | _ => none

/-! ## Responses -/

/-- The body that an operation on a response is given or defines. -/
def ResponseOp.given : ResponseOp → Option Str
  | .call (.setRespBuffer s _ _) => some (bufferBytes s)
  | .call (.setResp s _ _) => some s
  | .call (.setRespRedirect url _) =>
      if url.isEmpty || hasCRLF url then none else some Response.redirectPage
  | .call .setResp404NotFound => some Response.notFoundPage
  | .call .setResp500InternalServerError => some Response.serverErrorPage
  | .call .setResp403Forbidden => some Response.forbiddenPage
  | .call .setResp204NoContent => some []
  | .setBodyBuffer buf => some (bufferBytes buf)
  | .setBody body => some body
  | .exceptionResp thrown => some (Setter.exceptionText thrown)
  | _ => none

/-- `SetBody` of an empty or a null buffer. -/
def ResponseOp.EmptyBuffer (op : ResponseOp) : Prop :=
  ∃ buf, op = .setBodyBuffer buf ∧ bufferBytes buf = []

/-- The body that an operation on a response is given, but for an empty buffer of `SetBody`. -/
def ResponseOp.givenElsewhere : ResponseOp → Option Str
  | .setBodyBuffer buf => if bufferBytes buf = [] then none else some (bufferBytes buf)
  | op => op.given

/-- The last operation with a body is `SetBody` of an empty buffer, and there is another body that
was given before, or that the response had at first. -/
def StaleBody (first : Str) (ops : List ResponseOp) : Prop :=
  ∃ before op after, ops = before ++ op :: after ∧ op.EmptyBuffer ∧
    (∀ later ∈ after, later.given = none) ∧
    lastGiven ResponseOp.givenElsewhere first before ≠ []

/-! ## One operation -/

theorem bufferBody_eq (buf : Option Str) : Response.bufferBody buf = bufferBytes buf := by
  cases buf with
  | none => rfl
  | some text =>
      cases text with
      | nil => rfl
      | cons c rest => rfl

theorem Request.body_setBodyBuffer (r : Request) (buf : Option Str) :
    (r.setBodyBuffer buf).body = bufferBytes buf := by
  cases buf with
  | none => rfl
  | some text =>
      cases text with
      | nil => rfl
      | cons c rest => rfl

/-- A setter that leaves the body leaves it however many texts it stores. -/
theorem body_storeAll {M : Type} {set : Str → Str → M → M} {body : M → Str}
    (h : ∀ key val m, body (set key val m) = body m) (texts : List (Str × Str)) (m : M) :
    body (Json.storeAll set texts m) = body m := by
  have hstep : ∀ m (item : Str × Str), body (set item.1 item.2 m) = body m :=
    fun m item => h item.1 item.2 m
  exact kept_runFrom hstep m texts

theorem Request.body_setParam (key val : Str) (r : Request) :
    (r.setParam key val).body = r.body := by
  simp only [Request.setParam]
  split_ifs
  · rfl
  · rfl

/-- Decoding a text leaves the body of the request. -/
theorem Request.body_decode (root : Json) (r : Request) : (decode root r).2.body = r.body := by
  have hsetMethod (text : Str) (r' : Request) : (setMethod r' text).body = r'.body := rfl
  have hsetPath (text : Str) (r' : Request) : (setPath r' text).body = r'.body := rfl
  have hsetHeader (key val : Str) (r' : Request) : (setHeader r' key val).body = r'.body := rfl
  have hmethod (r' : Request) : (takeMethod root r').body = r'.body :=
    Json.handOn_keeps hsetMethod _ r'
  have hpath (r' : Request) : (takePath root r').body = r'.body :=
    Json.handOn_keeps hsetPath _ r'
  have hheaders (r' : Request) : (takeHeaders root r').body = r'.body :=
    body_storeAll hsetHeader _ r'
  have hparams (r' : Request) : (takeParams root r').body = r'.body :=
    body_storeAll Request.body_setParam _ r'
  rw [(settles_decode root r).1]
  split_ifs
  · rw [hparams, hheaders, hpath, hmethod]
  · rw [hheaders, hpath, hmethod]
  · rw [hpath, hmethod]
  · rw [hmethod]

/-- Decoding a text leaves the body of the response. -/
theorem Response.body_decode (root : Json) (r : Response) : (decode root r).2.body = r.body := by
  have hset (status : Nat) (r' : Response) : (setStatusCode r' status).body = r'.body := rfl
  have hsetHeader (key val : Str) (r' : Response) : (setHeader r' key val).body = r'.body := rfl
  have hstatus (r' : Response) : (takeStatus root r').body = r'.body :=
    Json.handOn_keeps hset _ r'
  have hheaders (r' : Response) : (takeHeaders root r').body = r'.body :=
    body_storeAll hsetHeader _ r'
  rw [(settles_decode root r).1]
  split_ifs
  · rw [hheaders, hstatus]
  · rw [hstatus]

/-- Each operation on a request that is given a body replaces the one it has. -/
theorem Request.body_op (parse : JsonParser) (r : Request) (op : RequestOp) :
    (r.op parse op).body = op.given.getD r.body := by
  cases op with
  | call c =>
      cases c with
      | setHeader key val => rfl
      | setHeaderInt key val => rfl
      | setParam key val => exact Request.body_setParam key val r
      | setParamInt key val => exact Request.body_setParam key (toText val) r
      | fromJsonStr text =>
          show (fromJsonStr parse text r).2.body = r.body
          cases hparse : parse (upTo nul text) with
          | none => rw [fromJsonStr_of_none hparse]
          | some root =>
              rw [fromJsonStr_of_some hparse]
              exact Request.body_decode root r
  | setMethod method => rfl
  | setPath path => rfl
  | setHeaders headers => rfl
  | setParams params => rfl
  | setBodyBuffer buf => exact r.body_setBodyBuffer buf
  | setBody body => rfl

/-- Each operation on a response that is given a body replaces the one it has, but for `SetBody` of
an empty buffer. -/
theorem Response.body_op (parse : JsonParser) (r : Response) (op : ResponseOp) :
    (r.op parse op).body = op.givenElsewhere.getD r.body := by
  cases op with
  | call c =>
      cases c with
      | setHeader key val => rfl
      | setHeaderInt key val => rfl
      | fromJsonStrWithoutBody text =>
          show (fromJsonStrWithoutBody parse text r).2.body = r.body
          cases hparse : parse text with
          | none => rw [fromJsonStrWithoutBody_of_none hparse]
          | some root =>
              rw [fromJsonStrWithoutBody_of_some hparse]
              exact Response.body_decode root r
      | setRespBuffer s contentType status => exact bufferBody_eq s
      | setResp s contentType status => exact bufferBody_eq (some s)
      | setRespRedirect url status =>
          simp only [Response.op, Response.call, Response.setRespRedirect,
            ResponseOp.givenElsewhere, ResponseOp.given]
          -- a URL that is not acceptable leaves the response
          by_cases hurl : (url.isEmpty || hasCRLF url) = true
          · rw [if_pos hurl, if_pos hurl]
            rfl
          · rw [if_neg hurl, if_neg hurl]
            rfl
      | setResp404NotFound => rfl
      | setResp500InternalServerError => rfl
      | setResp403Forbidden => rfl
      | setResp204NoContent => rfl
  | setStatusCode status => rfl
  | setHeaders headers => rfl
  | setBodyBuffer buf =>
      cases buf with
      | none => rfl
      | some text =>
          cases text with
          | nil => rfl
          | cons c rest => rfl
  | setBody body => rfl
  | exceptionResp thrown =>
      cases thrown with
      | exception what => exact bufferBody_eq (some (Setter.exceptionText (.exception what)))
      | other => exact bufferBody_eq (some (Setter.exceptionText .other))

/-! ## Histories -/

theorem ResponseOp.EmptyBuffer.given_eq {op : ResponseOp} (h : op.EmptyBuffer) :
    op.given = some [] ∧ op.givenElsewhere = none := by
  obtain ⟨buf, rfl, hbuf⟩ := h
  simp only [ResponseOp.given, ResponseOp.givenElsewhere, hbuf, if_true, and_self]

theorem ResponseOp.givenElsewhere_eq {op : ResponseOp} (h : ¬ op.EmptyBuffer) :
    op.givenElsewhere = op.given := by
  cases op with
  | setBodyBuffer buf =>
      simp only [ResponseOp.given, ResponseOp.givenElsewhere]
      rw [if_neg fun hbuf => h ⟨buf, rfl, hbuf⟩]
  | _ => rfl

/-- An operation without a body is no empty buffer. -/
theorem ResponseOp.givenElsewhere_of_none {op : ResponseOp} (h : op.given = none) :
    op.givenElsewhere = none := by
  have hother : ¬ op.EmptyBuffer := by
    intro hempty
    rw [hempty.given_eq.1] at h
    cases h
  rw [ResponseOp.givenElsewhere_eq hother, h]

/-- The body after a history that ends with an empty buffer and operations without a body is the one
before them. -/
theorem lastGiven_emptyBuffer {op : ResponseOp} {after : List ResponseOp} (hop : op.EmptyBuffer)
    (hafter : ∀ later ∈ after, later.given = none) (first : Str) (before : List ResponseOp) :
    lastGiven ResponseOp.givenElsewhere first (before ++ op :: after) =
      lastGiven ResponseOp.givenElsewhere first before := by
  simp only [lastGiven, runFrom_append, runFrom, hop.given_eq.2, Option.getD_none]
  exact lastGiven_of_none (fun later hlater => ResponseOp.givenElsewhere_of_none
    (hafter later hlater)) _

/-- The body of a response after a history is the one that was given last, if it is not stale. -/
theorem Response.body_last_iff (parse : JsonParser) (r : Response) (ops : List ResponseOp) :
    (∀ body, LastGives ResponseOp.given ops body →
        (runFrom (Response.op parse) r ops).body = body) ↔
      ¬ StaleBody r.body ops := by
  have hrun := part_eq_lastGiven Response.body (Response.body_op parse) r ops
  constructor
  · rintro h ⟨before, op, after, rfl, hop, hafter, hstale⟩
    have hempty := h [] ⟨before, op, after, rfl, hop.given_eq.1, hafter⟩
    rw [hrun, lastGiven_emptyBuffer hop hafter] at hempty
    exact hstale hempty
  · rintro hfresh body ⟨before, op, after, rfl, hgiven, hafter⟩
    rw [hrun]
    by_cases hop : op.EmptyBuffer
    · -- the empty buffer leaves the body of before, which is empty
      rw [hop.given_eq.1] at hgiven
      cases hgiven
      rw [lastGiven_emptyBuffer hop hafter]
      by_contra hstale
      exact hfresh ⟨before, op, after, rfl, hop, hafter, hstale⟩
    · rw [← ResponseOp.givenElsewhere_eq hop] at hgiven
      exact LastGives.lastGiven_eq ⟨before, op, after, rfl, hgiven, fun later hlater =>
        ResponseOp.givenElsewhere_of_none (hafter later hlater)⟩ _

/-- **The body that was set last.** After any operations on a request its body is the one that the
last of those with a body gave; after any operations on a response too, exactly where its body is
not stale. -/
theorem body_set_last_iff (parse : JsonParser) (q : Request) (qs : List RequestOp) (r : Response)
    (rs : List ResponseOp) :
    ((∀ body, LastGives RequestOp.given qs body →
        (runFrom (Request.op parse) q qs).body = body) ∧
      (∀ body, LastGives ResponseOp.given rs body →
        (runFrom (Response.op parse) r rs).body = body)) ↔ ¬ StaleBody r.body rs := by
  rw [Response.body_last_iff]
  apply and_iff_right
  intro body hlast
  rw [part_eq_lastGiven Request.body (Request.body_op parse) q qs]
  exact hlast.lastGiven_eq _

/-- A body of two bytes, and then an empty buffer: the response keeps the two bytes. -/
theorem body_stays_behind_empty_buffer :
    ¬ ∀ body, LastGives ResponseOp.given [.setBody (str "ok"), .setBodyBuffer none] body →
      (runFrom (Response.op fun _ => none) .fresh
        [.setBody (str "ok"), .setBodyBuffer none]).body = body := by
  intro h
  have hempty := h [] ⟨[.setBody (str "ok")], .setBodyBuffer none, [], rfl, rfl, by simp⟩
  exact absurd hempty (by decide)

end Ssgx.Http
