import Ssgx.Http.HeaderSafety
import Ssgx.Http.Router

/-!
# What the response setters leave

The setters of whole responses write status, headers and body. A header that is there already stays:
only `SetResp` takes one out before it writes, and only the type. `described_iff` says, behind any
history of a response, when the length, the type and the location it has are those of the last
setter.
-/

set_option autoImplicit false

namespace Ssgx.Http

open Ssgx.Support

/-- The setters of whole responses, with the response to an exception of a handler. -/
inductive Setter where
  | setRespBuffer (s : Option Str) (contentType : Str) (status : Int)
  | setResp (s contentType : Str) (status : Int)
  | setRespRedirect (url : Str) (status : Int)
  | setResp404NotFound
  | setResp500InternalServerError
  | setResp403Forbidden
  | setResp204NoContent
  | exceptionResp (thrown : Thrown)

/-- The operations on a response. -/
inductive ResponseOp where
  | call (c : ResponseCall)
  | setStatusCode (status : Int)
  | setHeaders (headers : TypeHeaders)
  | setBodyBuffer (buf : Option Str)
  | setBody (body : Str)
  | exceptionResp (thrown : Thrown)

/-- The response after an operation. -/
def Response.op (parse : JsonParser) (r : Response) : ResponseOp → Response
  | .call c => r.call parse c
  | .setStatusCode status => r.setStatusCode status
  | .setHeaders headers => r.setHeaders headers
  | .setBodyBuffer buf => r.setBodyBuffer buf
  | .setBody body => r.setBody body
  | .exceptionResp thrown => FilterChain.exceptionResp thrown r

namespace Setter

/-- The response after a setter. -/
def apply (r : Response) : Setter → Response
  | setRespBuffer s contentType status => r.setRespBuffer s contentType status
  | setResp s contentType status => r.setResp s contentType status
  | setRespRedirect url status => r.setRespRedirect url status
  | setResp404NotFound => r.setResp404NotFound
  | setResp500InternalServerError => r.setResp500InternalServerError
  | setResp403Forbidden => r.setResp403Forbidden
  | setResp204NoContent => r.setResp204NoContent
  | exceptionResp thrown => FilterChain.exceptionResp thrown r

/-- The text of the response to an exception. -/
def exceptionText : Thrown → Str
  | .exception what => str "Internal Server Error: " ++ what
  | .other => str "Internal Server Error: Unknown exception"

/-- The body that a setter writes. -/
def body : Setter → Str
  | setRespBuffer s _ _ => Response.bufferBody s
  | setResp s _ _ => Response.bufferBody (some s)
  | setRespRedirect _ _ => Response.redirectPage
  | setResp404NotFound => Response.notFoundPage
  | setResp500InternalServerError => Response.serverErrorPage
  | setResp403Forbidden => Response.forbiddenPage
  | setResp204NoContent => []
  | exceptionResp thrown => Response.bufferBody (some (exceptionText thrown))

/-- The type that a setter gives, where it gives one. -/
def contentType : Setter → Option Str
  | setRespBuffer _ contentType _ => some contentType
  | setResp _ contentType _ => some contentType
  | setResp204NoContent => none
  | exceptionResp _ => some (str "text/plain")
  | _ => some Response.pageType

/-- The location that a setter gives, where it gives one. -/
def location : Setter → Option Str
  | setRespRedirect url _ => some url
  | _ => none

/-- A redirection is to an acceptable URL. -/
def Acceptable : Setter → Prop
  | setRespRedirect url _ => url ≠ [] ∧ hasCRLF url = false
  | _ => True

/-- A setter takes the old type out before it gives one. -/
def erasesType : Setter → Bool
  | setRespBuffer .. => true
  | setResp .. => true
  | exceptionResp _ => true
  | _ => false

end Setter

/-- **The intended response.** The length is that of the body, and the type and the location are
those that the setter gives. -/
def Response.DescribedBy (r : Response) (setter : Setter) : Prop :=
  r.headers.find (str "Content-Length") = some (decimal r.body.length) ∧
    (∀ t, setter.contentType = some t → r.headers.find (str "Content-Type") = some t) ∧
    ∀ url, setter.location = some url → r.headers.find (str "Location") = some url

/-- A header has no value or this one. -/
def TypeHeaders.FreeFor (headers : TypeHeaders) (key val : Str) : Prop :=
  headers.find key = none ∨ headers.find key = some val

/-- The headers that are there leave room for those of the setter, and its type passes `HasCRLF`. -/
def Response.RoomFor (r : Response) (setter : Setter) : Prop :=
  r.headers.FreeFor (str "Content-Length") (decimal setter.body.length) ∧
    (∀ t, setter.contentType = some t →
      if setter.erasesType = true then hasCRLF t = false
      else r.headers.FreeFor (str "Content-Type") t) ∧
    ∀ url, setter.location = some url → r.headers.FreeFor (str "Location") url

/-! ## What a setter finds -/

theorem hasCRLF_decimal (n : Nat) : hasCRLF (decimal n) = false := by
  have hclean : CleanText (decimal n) := by
    constructor
    · intro hmem
      exact absurd (isDigit_of_mem_decimal hmem) (by decide)
    · intro hmem
      exact absurd (isDigit_of_mem_decimal hmem) (by decide)
  exact ((cleanText_iff (decimal n)).1 hclean).1

/-- The value of a header that was set to a text that passes. -/
theorem TypeHeaders.find_set_self {headers : TypeHeaders} {key val : Str}
    (h : headerPasses (key, val) = true) :
    (headers.set key val).find key = some ((headers.find key).getD val) := by
  rw [find_set, if_pos ⟨h, rfl⟩]

/-- The value of a header when another one was set. -/
theorem TypeHeaders.find_set_other {headers : TypeHeaders} {key other val : Str}
    (h : lower other ≠ lower key) : (headers.set other val).find key = headers.find key := by
  rw [find_set, if_neg fun hboth => h hboth.2]

/-- The length and the type after both were set. -/
theorem find_setTypeAndLength (headers : TypeHeaders) (contentType : Str) (n : Nat) :
    let after := (headers.set (str "Content-Type") contentType).set (str "Content-Length")
      (decimal n)
    after.find (str "Content-Length") =
        some ((headers.find (str "Content-Length")).getD (decimal n)) ∧
      after.find (str "Content-Type") =
        (if hasCRLF contentType = false then
          some ((headers.find (str "Content-Type")).getD contentType)
        else headers.find (str "Content-Type")) ∧
      after.find (str "Location") = headers.find (str "Location") := by
  have hlength : headerPasses (str "Content-Length", decimal n) = true :=
    headerPasses_iff.2 ⟨by decide, hasCRLF_decimal n⟩
  refine ⟨?_, ?_, ?_⟩
  · rw [TypeHeaders.find_set_self hlength, TypeHeaders.find_set_other (by decide)]
  · rw [TypeHeaders.find_set_other (by decide), TypeHeaders.find_set]
    have hpass : headerPasses (str "Content-Type", contentType) = true ↔
        hasCRLF contentType = false :=
      headerPasses_iff.trans (and_iff_right (by decide))
    simp only [hpass, and_true]
  · rw [TypeHeaders.find_set_other (by decide), TypeHeaders.find_set_other (by decide)]

/-- What is found after an insertion is the value exactly when there was room for it. -/
theorem some_getD_iff {headers : TypeHeaders} {key val : Str} :
    some ((headers.find key).getD val) = some val ↔ headers.FreeFor key val := by
  simp only [TypeHeaders.FreeFor]
  cases headers.find key with
  | none => simp
  | some old => simp

/-! ## The setters one by one -/

/-- The setters that go through `SetResp`. -/
theorem described_setRespBuffer (r : Response) (s : Option Str) (contentType : Str) (status : Int)
    {setter : Setter} (hbody : setter.body = Response.bufferBody s)
    (htype : setter.contentType = some contentType) (hlocation : setter.location = none)
    (herases : setter.erasesType = true) :
    (r.setRespBuffer s contentType status).DescribedBy setter ↔ r.RoomFor setter := by
  have hheaders : (r.setRespBuffer s contentType status).headers =
      ((r.headers.erase (str "Content-Type")).set (str "Content-Type") contentType).set
        (str "Content-Length") (decimal (Response.bufferBody s).length) := rfl
  have hafter : (r.setRespBuffer s contentType status).body = Response.bufferBody s := rfl
  obtain ⟨hlength, hset, -⟩ := find_setTypeAndLength (r.headers.erase (str "Content-Type"))
    contentType (Response.bufferBody s).length
  simp only [Response.DescribedBy, Response.RoomFor]
  rw [hheaders, hafter, hlength, hset, TypeHeaders.find_erase, TypeHeaders.find_erase,
    if_neg (by decide), if_pos rfl, hbody, htype, hlocation, herases, some_getD_iff]
  simp

/-- The setters of a page. -/
theorem described_setPage (r : Response) (status : Int) (page : Str) {setter : Setter}
    (hbody : setter.body = page) (htype : setter.contentType = some Response.pageType)
    (hlocation : setter.location = none) (herases : setter.erasesType = false) :
    (r.setPage status page).DescribedBy setter ↔ r.RoomFor setter := by
  have hheaders : (r.setPage status page).headers =
      (r.headers.set (str "Content-Type") Response.pageType).set
        (str "Content-Length") (decimal page.length) := rfl
  have hafter : (r.setPage status page).body = page := rfl
  obtain ⟨hlength, hset, -⟩ := find_setTypeAndLength r.headers Response.pageType page.length
  simp only [Response.DescribedBy, Response.RoomFor]
  rw [hheaders, hafter, hlength, hset, if_pos (by decide), hbody, htype, hlocation, herases,
    some_getD_iff]
  simp [← some_getD_iff]

/-- The redirection to an acceptable URL. -/
theorem described_setRespRedirect (r : Response) {url : Str} (status : Int) (hurl : url ≠ [])
    (hscan : hasCRLF url = false) :
    (r.setRespRedirect url status).DescribedBy (.setRespRedirect url status) ↔
      r.RoomFor (.setRespRedirect url status) := by
  have hgo : ¬ (url.isEmpty || hasCRLF url) = true := by
    rw [hscan, Bool.or_false, List.isEmpty_iff]
    exact hurl
  have hheaders : (r.setRespRedirect url status).headers =
      ((r.headers.set (str "Location") url).set (str "Content-Type") Response.pageType).set
        (str "Content-Length") (decimal Response.redirectPage.length) := by
    simp only [Response.setRespRedirect]
    rw [if_neg hgo]
    simp only [Response.setHeader, Response.setStatusCode, Response.setBody]
  have hafter : (r.setRespRedirect url status).body = Response.redirectPage := by
    simp only [Response.setRespRedirect]
    rw [if_neg hgo]
    rfl
  have hpass : headerPasses (str "Location", url) = true :=
    headerPasses_iff.2 ⟨by decide, hscan⟩
  obtain ⟨hlength, hset, hlocation⟩ := find_setTypeAndLength (r.headers.set (str "Location") url)
    Response.pageType Response.redirectPage.length
  simp only [Response.DescribedBy, Response.RoomFor]
  -- the location that is set is behind the insertions of the type and of the length
  rw [hheaders, hafter, hlength, hset, hlocation, if_pos (by decide),
    TypeHeaders.find_set_other (by decide), TypeHeaders.find_set_other (by decide),
    TypeHeaders.find_set_self hpass, some_getD_iff]
  simp [Setter.contentType, Setter.location, Setter.erasesType, Setter.body, ← some_getD_iff]

/-- The answer without a body, which gives no type. -/
theorem described_setResp204NoContent (r : Response) :
    r.setResp204NoContent.DescribedBy .setResp204NoContent ↔ r.RoomFor .setResp204NoContent := by
  have hpass : headerPasses (str "Content-Length", decimal 0) = true := by decide
  have hheaders : r.setResp204NoContent.headers =
      r.headers.set (str "Content-Length") (decimal 0) := rfl
  have hafter : r.setResp204NoContent.body = [] := rfl
  simp only [Response.DescribedBy, Response.RoomFor]
  rw [hheaders, hafter, List.length_nil, TypeHeaders.find_set_self hpass, some_getD_iff]
  simp [Setter.contentType, Setter.location, Setter.body]

/-- **One setter.** It leaves the intended response exactly where there was room for its headers. -/
theorem described_apply_iff (r : Response) (setter : Setter) (h : setter.Acceptable) :
    (setter.apply r).DescribedBy setter ↔ r.RoomFor setter := by
  cases setter with
  | setRespBuffer s contentType status =>
      exact described_setRespBuffer r s contentType status rfl rfl rfl rfl
  | setResp s contentType status =>
      exact described_setRespBuffer r (some s) contentType status rfl rfl rfl rfl
  | setRespRedirect url status => exact described_setRespRedirect r status h.1 h.2
  | setResp404NotFound => exact described_setPage r 404 Response.notFoundPage rfl rfl rfl rfl
  | setResp500InternalServerError =>
      exact described_setPage r 500 Response.serverErrorPage rfl rfl rfl rfl
  | setResp403Forbidden => exact described_setPage r 403 Response.forbiddenPage rfl rfl rfl rfl
  | setResp204NoContent => exact described_setResp204NoContent r
  | exceptionResp thrown =>
      cases thrown with
      | exception what => exact described_setRespBuffer r _ (str "text/plain") 500 rfl rfl rfl rfl
      | other => exact described_setRespBuffer r _ (str "text/plain") 500 rfl rfl rfl rfl

/-- **Any history.** After any operations on a fresh response, a setter leaves the length of its
body, its type and its location exactly where the headers so far leave room for them. -/
theorem described_iff (parse : JsonParser) (history : List ResponseOp) (setter : Setter)
    (h : setter.Acceptable) :
    (setter.apply (runFrom (Response.op parse) .fresh history)).DescribedBy setter ↔
      (runFrom (Response.op parse) .fresh history).RoomFor setter :=
  described_apply_iff _ setter h

/-- A redirection of a response with a status and a header of its own. -/
theorem described_iff_redirect :
    (Setter.apply (runFrom (Response.op fun _ => none) .fresh
        [.setStatusCode 200, .call (.setHeader (str "X") (str "y"))])
      (.setRespRedirect (str "/") 302)).DescribedBy (.setRespRedirect (str "/") 302) :=
  (described_iff (fun _ => none) [.setStatusCode 200, .call (.setHeader (str "X") (str "y"))]
    (.setRespRedirect (str "/") 302) ⟨by decide, by decide⟩).2
    ⟨.inl (by decide), fun _ h => by cases h; exact .inl (by decide),
      fun _ h => by cases h; exact .inl (by decide)⟩

/-- The 404 page behind a response with a body of two bytes keeps the length of that body. -/
theorem length_of_earlier_body_stays :
    ¬ (Setter.apply (runFrom (Response.op fun _ => none) .fresh
        [.call (.setResp (str "ok") (str "text/plain") 200)]) .setResp404NotFound).DescribedBy
      .setResp404NotFound := by
  rintro ⟨hlength, -⟩
  exact absurd hlength (by decide)

end Ssgx.Http
