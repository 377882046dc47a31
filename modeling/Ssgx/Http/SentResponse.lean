import Ssgx.Http.RequestHandler
import Ssgx.Http.ResponseSetters
import Ssgx.Support.Digits

/-!
# Responses on their way to the peer

What `RequestHandler::handleRequest` sends for a response that a handler has left behind. The
handler of the listener takes the status and the headers from the JSON text, and a body with bytes
from its buffer; Poco sets the length of such a body. An empty body is sent with the headers alone,
and their length is the one that the response has stored, if any.

`sent_faithful_iff` says for which responses the peer gets what was left behind.
-/

set_option autoImplicit false

namespace Ssgx.Http

open Ssgx.Support

/-- A text of digits for a number. -/
def Denotes (text : Str) (n : Nat) : Prop := text ≠ [] ∧ AllDigits text ∧ ofDecimal text = n

instance (text : Str) (n : Nat) : Decidable (Denotes text n) :=
  inferInstanceAs (Decidable (_ ∧ _ ∧ _))

theorem denotes_decimal (n : Nat) : Denotes (decimal n) n :=
  ⟨decimal_ne_nil n, allDigits_decimal n, ofDecimal_decimal n⟩

/-- **The intended response.** Status, body and headers are those of the response, and the length is
that of the body that is sent. -/
structure SentResponse.Faithful (sent : SentResponse) (r : Response) : Prop where
  status : sent.status = r.statusCode
  headers : (Keyed.erase lower (str "Content-Length") sent.headers).Perm
    (Keyed.erase lower (str "Content-Length") r.headers.items)
  body : sent.body = r.body
  length : ∃ text, Keyed.find lower (str "Content-Length") sent.headers = some text ∧
    Denotes text sent.body.length

/-- The host has the buffers for a response. -/
def HostBuffers.Suffice (buffers : HostBuffers) (r : Response) : Prop :=
  buffers.text = .buffer ∧ (r.body ≠ [] → buffers.body = .buffer)

/-- A response with an empty body has stored a length, and the length is zero. -/
def Response.LengthStored (r : Response) : Prop :=
  r.body = [] → ∃ text, r.headers.find (str "Content-Length") = some text ∧ Denotes text 0

/-- The status fits into `unsigned short`. -/
def Response.StatusFits (r : Response) : Prop := 0 ≤ r.statusCode ∧ r.statusCode < 65536

/-! ## What the handler of the listener makes of a reply -/

/-- An answer that the handler writes itself has no length. -/
theorem not_faithful_failure (status : Int) (text : Str) (r : Response) :
    ¬ (RequestHandler.failure status text).Faithful r := by
  intro h
  obtain ⟨length, hfind, -⟩ := h.length
  cases hfind

/-- The answer to a reply without results. -/
theorem answer_failed (parse : JsonParser) {ret : Int} (h : ret ≠ 0) :
    RequestHandler.answer parse (.failed ret) =
      some (RequestHandler.failure 500
        (str "Internal Server Error, failed to call enclave API.")) :=
  if_pos (.inr h)

/-- Texts are stored one after the other. -/
theorem setAll_texts (items : List (Str × Str)) (response : HttpServerResponse) :
    response.setAll (items.map fun item => (item.1, .string item.2)) =
      some { response with
        headers := runFrom (Keyed.store lower) response.headers items } := by
  induction items generalizing response with
  | nil => rfl
  | cons item rest ih => exact ih (response.set item.1 item.2)

/-- The items of a map that was encoded. -/
theorem Json.items_assignAll {items : List (Str × Str)} (h : Keyed.Distinct id items) :
    ∃ entries : List (Str × Str), entries.Perm items ∧
      (Json.null.assignAll items).items = entries.map fun item => (item.1, .string item.2) := by
  rcases eq_or_ne items [] with rfl | hne
  · exact ⟨[], List.Perm.refl _, rfl⟩
  · have hperm : (runFrom (Keyed.assign nameBefore) [] items).Perm ([] ++ items) :=
      Keyed.assignAll_perm h
    refine ⟨_, hperm, ?_⟩
    rw [assignAll_null hne]
    rfl

/-- **The document of a response as the handler reads it.** -/
theorem forward_document (r : Response) (body : Option Str) :
    ∃ headers, headers.Perm r.headers.items ∧ RequestHandler.forward r.document body =
      some (HttpServerResponse.sendBody ⟨RequestHandler.statusOf r.document, headers⟩ body) := by
  obtain ⟨-, hheaders⟩ := Response.member_document r
  simp only [RequestHandler.forward]
  rw [hheaders]
  by_cases hempty : r.headers.items.isEmpty = true
  · rw [List.isEmpty_iff.1 hempty]
    exact ⟨[], List.Perm.refl _, rfl⟩
  · obtain ⟨entries, hperm, hitems⟩ :=
      Json.items_assignAll (distinct_id_of_lower r.headers.distinct)
    have hdistinct : Keyed.Distinct lower ([] ++ entries) :=
      Keyed.Distinct.perm r.headers.distinct hperm
    refine ⟨entries, hperm, ?_⟩
    rw [if_neg hempty]
    simp only [hitems, setAll_texts, Option.bind_eq_bind, Option.bind_some]
    rw [show (HttpServerResponse.fresh.setStatus _).headers = [] from rfl,
      Keyed.storeAll_of_distinct hdistinct]
    rfl

/-- The status that is read is that of the response where it fits. -/
theorem statusOf_document (r : Response) :
    RequestHandler.statusOf r.document = r.statusCode ↔ r.StatusFits := by
  simp only [RequestHandler.statusOf, Response.StatusFits]
  rw [(Response.member_document r).1]
  simp only
  split_ifs with h
  · omega
  · omega

/-! ## When the peer gets the response -/

/-- An empty body goes out with the stored headers. -/
theorem faithful_send {r : Response} {headers : List (Str × Str)}
    (hperm : headers.Perm r.headers.items) (hbody : r.body = []) (status : Int) :
    (HttpServerResponse.send ⟨status, headers⟩ []).Faithful r ↔
      status = r.statusCode ∧ r.LengthStored := by
  have hfind : Keyed.find lower (str "Content-Length") headers =
      r.headers.find (str "Content-Length") := Keyed.find_perm r.headers.distinct hperm _
  constructor
  · intro h
    refine ⟨h.status, fun _ => ?_⟩
    rw [← hfind]
    exact h.length
  · rintro ⟨hstatus, hlength⟩
    refine ⟨hstatus, hperm.filter _, hbody.symm, ?_⟩
    show ∃ text, Keyed.find lower (str "Content-Length") headers = some text ∧ Denotes text 0
    rw [hfind]
    exact hlength hbody

/-- A body with bytes goes out with its own length. -/
theorem faithful_sendBuffer {r : Response} {headers : List (Str × Str)}
    (hperm : headers.Perm r.headers.items) (status : Int) :
    (HttpServerResponse.sendBuffer ⟨status, headers⟩ r.body).Faithful r ↔
      status = r.statusCode := by
  constructor
  · intro h
    exact h.status
  · intro hstatus
    refine ⟨hstatus, ?_, rfl, decimal r.body.length, ?_, denotes_decimal _⟩
    · show (Keyed.erase lower _ (Keyed.store lower headers (_, _))).Perm _
      rw [Keyed.erase_store]
      exact hperm.filter _
    · refine (Keyed.find_store (str "Content-Length") headers _).trans ?_
      exact if_pos rfl

/-- The answer to a reply with the text of a response. -/
theorem answer_withBody {lib : JsonLibrary} {r : Response} {text : Str}
    (hnul : nul ∉ text) (hparse : lib.parse text = some r.document) (body : Option Str) :
    RequestHandler.answer lib.parse ⟨true, 0, some text, body⟩ =
      RequestHandler.forward r.document body := by
  simp only [RequestHandler.answer]
  rw [if_neg (by simp)]
  simp only [upTo_of_not_mem hnul, hparse]

/-- **One response.** The peer gets it exactly where the host has the buffers, the status fits and
an empty body has stored its length. -/
theorem sent_response_iff {lib : JsonLibrary} {r : Response} (hexact : lib.Exact r.document)
    (buffers : HostBuffers) :
    (∃ sent, RequestHandler.answer lib.parse (.ofResponse lib buffers r) = some sent ∧
        sent.Faithful r) ↔
      buffers.Suffice r ∧ r.StatusFits ∧ r.LengthStored := by
  obtain ⟨text, hdump, hnul, hparse⟩ := hexact
  -- an answer of the host of its own is no answer of the handler
  have hfailed : ∀ ret : Int, ret ≠ 0 →
      ¬ ∃ sent, RequestHandler.answer lib.parse (.failed ret) = some sent ∧ sent.Faithful r := by
    rintro ret hret ⟨sent, hsent, hfaithful⟩
    rw [answer_failed lib.parse hret] at hsent
    cases hsent
    exact not_faithful_failure _ _ r hfaithful
  simp only [EcallReply.ofResponse, Response.toJsonStrWithoutBody, HostBuffers.Suffice]
  rw [hdump]
  simp only [upTo_of_not_mem hnul, ne_eq, not_true_eq_false, if_false]
  cases htext : buffers.text with
  | null => exact iff_of_false (hfailed (-7) (by decide)) fun h => by cases h.1.1
  | inside => exact iff_of_false (hfailed (-9) (by decide)) fun h => by cases h.1.1
  | buffer =>
      by_cases hbody : r.body = []
      · -- an empty body is not copied, and its length must be among the headers
        obtain ⟨headers, hperm, hforward⟩ := forward_document r none
        have hreply :
            EcallReply.withBody r.body buffers.body text = ⟨true, 0, some text, none⟩ := by
          rw [hbody]
          rfl
        simp only [hreply, answer_withBody hnul hparse, hforward, Option.some.injEq,
          exists_eq_left', HttpServerResponse.sendBody]
        rw [faithful_send hperm hbody, statusOf_document]
        simp [hbody]
      · obtain ⟨headers, hperm, hforward⟩ := forward_document r (some r.body)
        -- the length of another body is set when it is sent
        have hlength : r.LengthStored := fun h => absurd h hbody
        have hcopied := mt List.isEmpty_iff.1 hbody
        cases hbuffer : buffers.body with
        | null =>
            have hreply : EcallReply.withBody r.body .null text = .failed (-8) := if_neg hcopied
            rw [hreply]
            exact iff_of_false (hfailed (-8) (by decide)) fun h => by cases h.1.2 hbody
        | inside =>
            have hreply : EcallReply.withBody r.body .inside text = .failed (-9) := if_neg hcopied
            rw [hreply]
            exact iff_of_false (hfailed (-9) (by decide)) fun h => by cases h.1.2 hbody
        | buffer =>
            have hreply : EcallReply.withBody r.body .buffer text =
                ⟨true, 0, some text, some r.body⟩ := if_neg hcopied
            rw [hreply]
            simp only [answer_withBody hnul hparse, hforward, Option.some.injEq, exists_eq_left',
              HttpServerResponse.sendBody]
            rw [if_pos (List.length_pos_iff.2 hbody), faithful_sendBuffer hperm,
              statusOf_document]
            simp [hlength]

/-- **When the peer gets what the handler has left behind.** Where a handler was called and has left
a response after any operations on a fresh one, the listener sends its status, its headers, its body
and the length of the body exactly when the host has the buffers, the status fits into
`unsigned short`, and a body without bytes comes with a stored length of zero. -/
theorem sent_faithful_iff {S : Type} (lib : JsonLibrary) (query : Str → Option S) (serverId : Str)
    (request : HttpServerRequest) (server : S) (r : Request)
    (hhanded : RequestHandler.handed lib query serverId request = some (server, r))
    (process : S → Request → Option Response) (history : List ResponseOp)
    (hleft : process server r = some (runFrom (Response.op lib.parse) .fresh history))
    (hexact : lib.Exact (runFrom (Response.op lib.parse) .fresh history).document)
    (buffers : HostBuffers) :
    (∃ sent, RequestHandler.handleRequest lib
          (some (ssgxEcallHttpOnMessage lib query process buffers)) serverId request = some sent ∧
        sent.Faithful (runFrom (Response.op lib.parse) .fresh history)) ↔
      buffers.Suffice (runFrom (Response.op lib.parse) .fresh history) ∧
        (runFrom (Response.op lib.parse) .fresh history).StatusFits ∧
        (runFrom (Response.op lib.parse) .fresh history).LengthStored := by
  rw [RequestHandler.handleRequest_of_handed hhanded process buffers, hleft]
  exact sent_response_iff hexact buffers

/-- What the library does with a message without headers and parameters and with a page of two
bytes. -/
def pageLibrary : JsonLibrary :=
  .ofDocuments
    [(.object [(str "headers", .null)], str "\x7b\"headers\":null\x7d"),
      (.object [(str "params", .null)], str "\x7b\"params\":null\x7d"),
      (.object [(str "headers", .object [(str "Content-Length", .string (str "2")),
          (str "Content-Type", .string (str "text/plain"))]), (str "status_code", .integer 200)],
        str "\x7b\"headers\":\x7b\"Content-Length\":\"2\",\"Content-Type\":\"text/plain\"\x7d," ++
          str "\"status_code\":200\x7d")]

/-- A page with a body of two bytes. -/
theorem sent_faithful_iff_page :
    let history : List ResponseOp := [.call (.setResp (str "ok") (str "text/plain") 200)]
    let left := runFrom (Response.op pageLibrary.parse) .fresh history
    ∃ sent, RequestHandler.handleRequest pageLibrary
        (some (ssgxEcallHttpOnMessage pageLibrary (fun _ => some ()) (fun _ _ => some left)
          ⟨.buffer, .buffer⟩)) (str "1_u") ⟨str "GET", some ⟨str "/a", []⟩, [], []⟩ = some sent ∧
      sent.Faithful left :=
  (sent_faithful_iff pageLibrary (fun _ => some ()) (str "1_u")
    ⟨str "GET", some ⟨str "/a", []⟩, [], []⟩ () _
    rfl _ [.call (.setResp (str "ok") (str "text/plain") 200)] rfl ⟨_, rfl, by decide, rfl⟩
    ⟨.buffer, .buffer⟩).2
    ⟨⟨rfl, fun _ => rfl⟩, ⟨by decide, by decide⟩, fun h => absurd h (by decide)⟩

/-- A handler that takes the body of its page back leaves the length of the page, and the peer is
told of two bytes that do not come. -/
theorem length_of_dropped_body_sent :
    let history : List ResponseOp :=
      [.call (.setResp (str "ok") (str "text/plain") 200), .setBody []]
    let left := runFrom (Response.op pageLibrary.parse) .fresh history
    ∃ sent, RequestHandler.handleRequest pageLibrary
        (some (ssgxEcallHttpOnMessage pageLibrary (fun _ => some ()) (fun _ _ => some left)
          ⟨.buffer, .buffer⟩)) (str "1_u") ⟨str "GET", some ⟨str "/a", []⟩, [], []⟩ = some sent ∧
      pageLibrary.Exact left.document ∧ sent.body = [] ∧
      Keyed.find lower (str "Content-Length") sent.headers = some (str "2") ∧
      ¬ sent.Faithful left := by
  intro history left
  refine ⟨_, rfl, ⟨_, rfl, by decide, rfl⟩, rfl, rfl, ?_⟩
  rintro ⟨-, -, -, text, hfind, hdenotes⟩
  have htext : some (str "2") = some text := hfind
  cases htext
  exact absurd hdenotes (by decide)

end Ssgx.Http
