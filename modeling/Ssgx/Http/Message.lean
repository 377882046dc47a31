import Ssgx.Http.Client
import Ssgx.Support.Keyed

/-!
# Requests and responses

`Request` and `Response` of the trusted side, with the operations that change their headers and
parameters. A header or a parameter is stored through `std::map::emplace`, so the first value of a
key stays. `HasCRLF` reads its text as a C string: it ends at the first NUL.

The order of the items of a map is the order of insertion here; nothing below reads it.
-/

set_option autoImplicit false

namespace Ssgx.Http

open Ssgx.Support

/-- The character that ends a C string. -/
def nul : Char := '\x00'

/-- `HasCRLF`: the loop over the characters of `c_str()`. -/
def hasCRLF : Str → Bool
  | [] => false
  | ch :: rest =>
      if ch = nul then false
      else if ch = '\r' ∨ ch = '\n' then true
      else hasCRLF rest

/-- `IsNonEmptyString` of a C string, or of a null pointer. -/
def isNonEmptyString : Option Str → Bool
  | some text => !text.isEmpty
  | none => false

/-! ## Maps -/

namespace TypeHeaders

/-- No headers. -/
def empty : TypeHeaders := ⟨[], Keyed.distinct_nil lower⟩

/-- The value of a header. -/
def find (headers : TypeHeaders) (key : Str) : Option Str := Keyed.find lower key headers.items

/-- `headers_.emplace(key, val)`. -/
def emplace (headers : TypeHeaders) (key val : Str) : TypeHeaders :=
  ⟨Keyed.emplace lower key val headers.items, Keyed.distinct_emplace headers.distinct key val⟩

/-- `headers_.erase` of the `equal_range` of a key. -/
def erase (headers : TypeHeaders) (key : Str) : TypeHeaders :=
  ⟨Keyed.erase lower key headers.items, Keyed.distinct_erase headers.distinct key⟩

end TypeHeaders

/-- `TypeParams`: a map whose keys are compared as they are. -/
structure TypeParams where
  items : List (Str × Str)
  distinct : Keyed.Distinct id items

namespace TypeParams

/-- No parameters. -/
def empty : TypeParams := ⟨[], Keyed.distinct_nil id⟩

/-- `params_.emplace(key, val)`. -/
def emplace (params : TypeParams) (key val : Str) : TypeParams :=
  ⟨Keyed.emplace id key val params.items, Keyed.distinct_emplace params.distinct key val⟩

end TypeParams

/-- The body of `Request::SetHeader` and of `Response::SetHeader`. -/
def TypeHeaders.set (headers : TypeHeaders) (key val : Str) : TypeHeaders :=
  if !hasCRLF key && !hasCRLF val then headers.emplace key val else headers

/-! ## Requests -/

/-- `Request`. -/
structure Request where
  method : Str
  path : Str
  params : TypeParams
  headers : TypeHeaders
  body : Str

namespace Request

/-- A request as its constructor leaves it. -/
def fresh : Request := ⟨[], [], .empty, .empty, []⟩

/-- `Request::SetMethod`. -/
def setMethod (r : Request) (method : Str) : Request := { r with method := method }

/-- `Request::SetPath`. -/
def setPath (r : Request) (path : Str) : Request := { r with path := path }

/-- `Request::SetHeader`. -/
def setHeader (r : Request) (key val : Str) : Request :=
  { r with headers := r.headers.set key val }

/-- `Request::SetHeader` of a number. -/
def setHeaderInt (r : Request) (key : Str) (val : Int) : Request := r.setHeader key (toText val)

/-- `Request::SetParam`, whose check passes where one of the two texts does. -/
def setParam (r : Request) (key val : Str) : Request :=
  if !hasCRLF key || !hasCRLF val then { r with params := r.params.emplace key val } else r

/-- `Request::SetParam` of a number. -/
def setParamInt (r : Request) (key : Str) (val : Int) : Request := r.setParam key (toText val)

/-- `Request::SetBody`. -/
def setBody (r : Request) (body : Str) : Request := { r with body := body }

end Request

/-! ## Responses -/

/-- `Response`. The status code is the number of the enumerator. -/
structure Response where
  statusCode : Int
  headers : TypeHeaders
  body : Str

namespace Response

/-- A response as its constructor leaves it. -/
def fresh : Response := ⟨500, .empty, []⟩

/-- `Response::SetStatusCode`. -/
def setStatusCode (r : Response) (status : Int) : Response := { r with statusCode := status }

/-- `Response::SetHeaders`. -/
def setHeaders (r : Response) (headers : TypeHeaders) : Response := { r with headers := headers }

/-- `Response::SetHeader`. -/
def setHeader (r : Response) (key val : Str) : Response :=
  { r with headers := r.headers.set key val }

/-- `Response::SetHeader` of a number. -/
def setHeaderInt (r : Response) (key : Str) (val : Int) : Response := r.setHeader key (toText val)

/-- `Response::SetBody` of a buffer. For a null or an empty buffer the code has a comparison in the
place of the assignment, and the body stays. -/
def setBodyBuffer (r : Response) (buf : Option Str) : Response :=
  match buf with
  | some text => if text.length > 0 then { r with body := text } else r
  | none => r

/-- `Response::SetBody` of a string. -/
def setBody (r : Response) (body : Str) : Response := { r with body := body }

/-- The body that `SetResp` takes from a buffer. -/
def bufferBody : Option Str → Str
  | some text => if text.length > 0 then text else []
  | none => []

/-- `Response::SetResp` of a buffer. -/
def setRespBuffer (r : Response) (s : Option Str) (contentType : Str) (status : Int) : Response :=
  let r := { r with body := bufferBody s }
  let r := r.setStatusCode status
  let r := { r with headers := r.headers.erase (str "Content-Type") }
  let r := r.setHeader (str "Content-Type") contentType
  r.setHeader (str "Content-Length") (decimal r.body.length)

/-- `Response::SetResp` of a string. -/
def setResp (r : Response) (s contentType : Str) (status : Int) : Response :=
  r.setRespBuffer (some s) contentType status

/-- The type of the page that each of the setters below writes. -/
def pageType : Str := str "text/html; charset=utf-8"

/-- The page of `SetRespRedirect`. -/
def redirectPage : Str := str "<html><body><h1>Redirecting...</h1></body></html>"

/-- `Response::SetRespRedirect`. -/
def setRespRedirect (r : Response) (url : Str) (status : Int) : Response :=
  if url.isEmpty || hasCRLF url then r
  else
    let r := r.setHeader (str "Location") url
    let r := r.setStatusCode (if status < 300 ∨ status ≥ 400 then 302 else status)
    let r := r.setBody redirectPage
    let r := r.setHeader (str "Content-Type") pageType
    r.setHeader (str "Content-Length") (decimal r.body.length)

/-- The page setters: status, type, length and body, in this order. -/
def setPage (r : Response) (status : Int) (body : Str) : Response :=
  let r := r.setStatusCode status
  let r := r.setHeader (str "Content-Type") pageType
  let r := r.setHeader (str "Content-Length") (decimal body.length)
  r.setBody body

/-- The page of `SetResp404NotFound`. -/
def notFoundPage : Str := str "<html><body><h1>404 Not Found</h1></body></html>"

/-- The page of `SetResp500InternalServerError`. -/
def serverErrorPage : Str := str "<html><body><h1>500 Internal Server Error</h1></body></html>"

/-- The page of `SetResp403Forbidden`. -/
def forbiddenPage : Str := str "<html><body><h1>403 Forbidden</h1></body></html>"

/-- `Response::SetResp404NotFound`. -/
def setResp404NotFound (r : Response) : Response := r.setPage 404 notFoundPage

/-- `Response::SetResp500InternalServerError`. -/
def setResp500InternalServerError (r : Response) : Response := r.setPage 500 serverErrorPage

/-- `Response::SetResp403Forbidden`. -/
def setResp403Forbidden (r : Response) : Response := r.setPage 403 forbiddenPage

/-- `Response::SetResp204NoContent`, which says nothing of a type. -/
def setResp204NoContent (r : Response) : Response :=
  let r := r.setStatusCode 204
  let r := r.setHeader (str "Content-Length") (decimal 0)
  r.setBody []

end Response

/-! ## What an insertion does -/

theorem hasCRLF_eq (s : Str) : hasCRLF s = true ↔ '\r' ∈ upTo nul s ∨ '\n' ∈ upTo nul s := by
  induction s with
  | nil => simp [hasCRLF, upTo]
  | cons ch rest ih =>
      rw [hasCRLF, upTo]
      by_cases hnul : ch = nul
      · simp [hnul]
      · rw [if_neg hnul, if_neg hnul]
        by_cases hline : ch = '\r' ∨ ch = '\n'
        · rw [if_pos hline]
          rcases hline with rfl | rfl
          · simp
          · simp
        · rw [if_neg hline, ih, List.mem_cons, List.mem_cons]
          obtain ⟨hcr, hlf⟩ := not_or.1 hline
          rw [eq_comm (b := ch), eq_comm (b := ch)]
          simp [hcr, hlf]

/-- The check of `SetHeader`. -/
def headerPasses (item : Str × Str) : Bool := !hasCRLF item.1 && !hasCRLF item.2

theorem headerPasses_iff {key val : Str} :
    headerPasses (key, val) = true ↔ hasCRLF key = false ∧ hasCRLF val = false := by
  simp [headerPasses]

/-- The check of `SetParam`. -/
def paramPasses (item : Str × Str) : Bool := !hasCRLF item.1 || !hasCRLF item.2

/-- `SetHeader` is a guarded insertion. -/
theorem TypeHeaders.items_set (headers : TypeHeaders) (key val : Str) :
    (headers.set key val).items = Keyed.put lower headerPasses headers.items (key, val) := by
  unfold TypeHeaders.set Keyed.put headerPasses
  split_ifs
  · rfl
  · rfl

/-- `SetParam` is a guarded insertion. -/
theorem Request.params_setParam (r : Request) (key val : Str) :
    (r.setParam key val).params.items = Keyed.put id paramPasses r.params.items (key, val) := by
  unfold Request.setParam Keyed.put paramPasses
  split_ifs
  · rfl
  · rfl

@[simp] theorem Request.headers_setParam (r : Request) (key val : Str) :
    (r.setParam key val).headers = r.headers := by
  simp only [Request.setParam]
  split_ifs
  · rfl
  · rfl

/-- **What is found after `SetHeader`.** -/
theorem TypeHeaders.find_set (headers : TypeHeaders) (key key' val : Str) :
    (headers.set key' val).find key =
      if headerPasses (key', val) = true ∧ lower key' = lower key
      then some ((headers.find key).getD val) else headers.find key := by
  simp only [TypeHeaders.find]
  rw [TypeHeaders.items_set, Keyed.put]
  by_cases hpass : headerPasses (key', val) = true
  · rw [if_pos hpass, Keyed.find_emplace]
    simp [hpass]
  · rw [if_neg hpass, if_neg (fun h => hpass h.1)]

theorem TypeHeaders.find_erase (headers : TypeHeaders) (key key' : Str) :
    (headers.erase key').find key =
      if lower key' = lower key then none else headers.find key :=
  Keyed.find_erase key key' headers.items

end Ssgx.Http
