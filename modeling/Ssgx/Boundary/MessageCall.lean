import Ssgx.Attestation.Overloads
import Ssgx.Boundary.ReplyOutcome
import Ssgx.Http.JsonDump
import Ssgx.Http.OnMessage
import Ssgx.Http.RequestHandler
import Ssgx.Http.Router

/-!
# A message from its request to its reply

`ssgx_ecall_http_on_message` as a whole, with the handlers and filters of the application in the
middle and pointers of the host at the end. An exception of a handler becomes a response, and a
`std::exception` of a filter an error code; whatever else a filter throws is caught nowhere and
leaves the call.

`on_message_iff` says when a call for a request that was decoded returns, and leaves behind what it
should.
-/

set_option autoImplicit false

namespace Ssgx.Boundary

open Ssgx.Support Ssgx.Http
open Ssgx.Attestation (asciiBytes)

variable {H F W : Type}

/-! ## The call -/

/-- What leaves the call as an exception: one of a decoder, one of the application that is no
`std::exception`, or one of the copies outside. -/
inductive Escape where
  | decoder (e : JsonException)
  | application
  | copying (what : Str)

/-- What `ServerProcessBridge` and `ToJsonStrWithoutBody` come to in the `try` block. -/
def processed (app : Application H F W) (lib : JsonLibrary) (server : RequestServer H F)
    (m : Message) (r : Request) (world : W) : Except Escape MessageOutcome :=
  let p := server.process app (m.method.getD []) (m.path.getD []) ⟨r, .fresh, world⟩
  match p.result with
  | .error (.exception _) => .ok .thrown
  | .error .other => .error .application
  | .ok _ =>
      match p.handling.response.toJsonStrWithoutBody lib with
      -- thrown by `dump`
      | none => .ok .thrown
      | some text => .ok (.response (asciiBytes text) (asciiBytes p.handling.response.body))

/-- What the call has come to when it copies its results out. -/
def messageOutcome (app : Application H F W) (lib : JsonLibrary)
    (query : Str → Option (RequestServer H F)) (m : Message) (world : W) :
    Except Escape MessageOutcome :=
  match prepareMessage lib.parse query m .fresh with
  | (.error e, _) => .error (.decoder e)
  | (.ok (.refused code), _) => .ok (.refused code)
  | (.ok (.admitted server), r) => processed app lib server m r world

/-- `ssgx_ecall_http_on_message`. -/
def onMessage (outside : Nat → Nat → Bool) (app : Application H F W) (lib : JsonLibrary)
    (query : Str → Option (RequestServer H F)) (m : Message) (world : W) :
    Call Escape HostWorld MessageReply := fun w =>
  match messageOutcome app lib query m world with
  | .error e => (.error e, w)
  | .ok outcome =>
      ((replyMessage outside outcome w).1.mapError .copying, (replyMessage outside outcome w).2)

/-! ## What is asked of it -/

/-- `Process` has produced this response, and this is its text. -/
def Produces (app : Application H F W) (lib : JsonLibrary) (server : RequestServer H F)
    (m : Message) (r : Request) (world : W) (response : Response) (text : Str) : Prop :=
  let p := server.process app (m.method.getD []) (m.path.getD []) ⟨r, .fresh, world⟩
  p.result = .ok ⟨⟩ ∧ p.handling.response = response ∧
    response.toJsonStrWithoutBody lib = some text

/-- **The intended end** of a call whose request is decoded: it returns; with an error it has no
results and has given back every buffer, and without one it hands over the status and the headers
and the body of the response that `Process` has produced. -/
def MessageKept (outside : Nat → Nat → Bool) (app : Application H F W) (lib : JsonLibrary)
    (query : Str → Option (RequestServer H F)) (m : Message) (world : W) (w : HostWorld) : Prop :=
  ∀ admission r, prepareMessage lib.parse query m .fresh = (.ok admission, r) →
    ∃ reply w', onMessage outside app lib query m world w = (.ok reply, w') ∧
      (reply.ret ≠ 0 → reply = .failed reply.ret ∧ FreesAll w w') ∧
      (reply.ret = 0 → ∃ server response text, admission = .admitted server ∧
        Produces app lib server m r world response text ∧
        HandsOver reply w' (asciiBytes text) (asciiBytes response.body))

/-- A filter that runs throws something that is no `std::exception`: in front of the handler, or
behind it. -/
def FilterThrowsOther (app : Application H F W) (filters : List F) (handler : H) (s : Handling W) :
    Prop :=
  (FilterChain.runBefore app filters { s with response := .fresh }).1 = .error .other ∨
    ∃ s', FilterChain.runBefore app filters { s with response := .fresh } = (.ok true, s') ∧
      (FilterChain.runAfter app filters (FilterChain.runHandler app handler s')).1 = .error .other

/-! ## Up to the reply -/

theorem execute_other_iff (app : Application H F W) (filters : List F) (handler : H)
    (s : Handling W) :
    (FilterChain.execute app filters handler s).result = .error .other ↔
      FilterThrowsOther app filters handler s := by
  simp only [FilterChain.execute, FilterThrowsOther]
  rcases FilterChain.runBefore app filters { s with response := .fresh } with ⟨result, s'⟩
  cases result with
  | error thrown => simp
  | ok goOn =>
      cases goOn with
      | false => simp
      | true => simp

theorem process_other_iff (app : Application H F W) (server : RequestServer H F)
    (method path : Str) (s : Handling W) :
    (server.process app method path s).result = .error .other ↔
      ∃ handler, getHandler server.routes method path = some handler ∧
        FilterThrowsOther app server.filters handler s := by
  simp only [RequestServer.process]
  cases hhandler : getHandler server.routes method path with
  | none => simp
  | some handler =>
      simp only [Option.some.injEq, exists_eq_left']
      rw [← execute_other_iff]
      cases hresult : (FilterChain.execute app server.filters handler s).result with
      | ok u => simp [hresult]
      | error thrown => simp

/-- A refusal has a code. -/
theorem prepareMessage_refused {S : Type} {parse : JsonParser} {query : Str → Option S}
    {m : Message} {code : Int} {r r' : Request}
    (h : prepareMessage parse query m r = (.ok (.refused code), r')) : code ≠ 0 := by
  simp only [prepareMessage] at h
  split_ifs at h
  · cases h
    decide
  · cases h
    decide
  · cases h
    decide
  · obtain ⟨headersRead, r₁, -, h⟩ := Call.bind_ok_iff.1 h
    split_ifs at h
    · cases h
      decide
    · obtain ⟨paramsRead, r₂, -, h⟩ := Call.bind_ok_iff.1 h
      split_ifs at h
      · cases h
        decide
      · cases hquery : query (m.serverId.getD []) with
        | none =>
            rw [hquery] at h
            cases h
            decide
        | some server =>
            rw [hquery] at h
            cases h

/-! ## When a call does what it should -/

/-- What a call needs: no filter throws what is no `std::exception`, and the host keeps the text of
the response that is produced. -/
structure MessageFits (outside : Nat → Nat → Bool) (app : Application H F W) (lib : JsonLibrary)
    (query : Str → Option (RequestServer H F)) (m : Message) (world : W) (w : HostWorld) :
    Prop where
  filters : ∀ server r handler,
    prepareMessage lib.parse query m .fresh = (.ok (.admitted server), r) →
      getHandler server.routes (m.method.getD []) (m.path.getD []) = some handler →
        ¬ FilterThrowsOther app server.filters handler ⟨r, .fresh, world⟩
  host : ∀ server r response text,
    prepareMessage lib.parse query m .fresh = (.ok (.admitted server), r) →
      Produces app lib server m r world response text →
        KeepsText outside w (asciiBytes text) (asciiBytes response.body)

section Kept

variable {outside : Nat → Nat → Bool} {app : Application H F W} {lib : JsonLibrary}
  {query : Str → Option (RequestServer H F)} {m : Message} {world : W} {w : HostWorld}

/-- A call that ends with an error in front of its copies. -/
theorem messageKept_of_failed {outcome : MessageOutcome} {ret : Int} (hret : ret ≠ 0)
    (houtcome : messageOutcome app lib query m world = .ok outcome)
    (hreply : replyMessage outside outcome w = (.ok (.failed ret), w)) :
    MessageKept outside app lib query m world w := by
  intro admission r _
  refine ⟨.failed ret, w, ?_, fun _ => ⟨rfl, [], rfl, by simp⟩, fun h => absurd h hret⟩
  simp only [onMessage, houtcome, hreply]
  rfl

/-- A call that comes to its copies keeps its promise exactly where the reply delivers. -/
theorem messageKept_of_response {server : RequestServer H F} {r : Request} {response : Response}
    {text : Str} (hprepare : prepareMessage lib.parse query m .fresh = (.ok (.admitted server), r))
    (hproduces : Produces app lib server m r world response text) :
    MessageKept outside app lib query m world w ↔
      KeepsText outside w (asciiBytes text) (asciiBytes response.body) := by
  obtain ⟨hresult, rfl, htext⟩ := hproduces
  have houtcome : messageOutcome app lib query m world = .ok (.response (asciiBytes text)
      (asciiBytes (server.process app (m.method.getD []) (m.path.getD [])
        ⟨r, .fresh, world⟩).handling.response.body)) := by
    simp only [messageOutcome, hprepare, processed, hresult, htext]
  obtain ⟨reply, w', hreply, hdelivers⟩ := replyMessage_delivers_iff outside w
    (asciiBytes text) (asciiBytes (server.process app (m.method.getD []) (m.path.getD [])
      ⟨r, .fresh, world⟩).handling.response.body)
  have hcall : onMessage outside app lib query m world w = (.ok reply, w') := by
    simp only [onMessage, houtcome, hreply]
    rfl
  rw [← hdelivers]
  constructor
  · intro hkept
    obtain ⟨reply', w'', hsame, hfailed, hdone⟩ := hkept _ _ hprepare
    rw [hcall] at hsame
    cases hsame
    refine ⟨hfailed, fun hzero => ?_⟩
    obtain ⟨server', response, text', hadmitted, hproduced, hover⟩ := hdone hzero
    cases hadmitted
    obtain ⟨-, rfl, htext'⟩ := hproduced
    rw [htext] at htext'
    cases htext'
    exact hover
  · intro hdelivered admission r' hsame
    rw [hprepare] at hsame
    cases hsame
    exact ⟨reply, w', hcall, hdelivered.failed, fun hzero =>
      ⟨server, _, text, rfl, ⟨hresult, rfl, htext⟩, hdelivered.done hzero⟩⟩

/-- A call for a server keeps its promise by what `Process` comes to. -/
theorem messageKept_of_admitted {server : RequestServer H F} {r : Request}
    (hprepare : prepareMessage lib.parse query m .fresh = (.ok (.admitted server), r)) :
    MessageKept outside app lib query m world w ↔
      (server.process app (m.method.getD []) (m.path.getD []) ⟨r, .fresh, world⟩).result ≠
        .error .other ∧
      ∀ response text, Produces app lib server m r world response text →
        KeepsText outside w (asciiBytes text) (asciiBytes response.body) := by
  have houtcome : messageOutcome app lib query m world = processed app lib server m r world := by
    simp only [messageOutcome, hprepare]
  -- an exception that becomes a code leaves nothing to copy
  have hthrown : processed app lib server m r world = .ok .thrown →
      MessageKept outside app lib query m world w := fun h =>
    messageKept_of_failed (by decide : (-9 : Int) ≠ 0) (houtcome.trans h) rfl
  cases hresult : (server.process app (m.method.getD []) (m.path.getD [])
      ⟨r, .fresh, world⟩).result with
  | error thrown =>
      have hnothing : ∀ response text, ¬ Produces app lib server m r world response text := by
        rintro response text ⟨hok, -⟩
        rw [hresult] at hok
        cases hok
      cases thrown with
      | exception what =>
          refine iff_of_true (hthrown ?_)
            ⟨by simp, fun response text h => absurd h (hnothing response text)⟩
          simp only [processed, hresult]
      | other =>
          refine iff_of_false (fun hkept => ?_) fun h => absurd rfl h.1
          obtain ⟨reply, w', hcall, -⟩ := hkept _ _ hprepare
          simp only [onMessage, houtcome, processed, hresult] at hcall
          cases hcall
  | ok u =>
      cases htext : (server.process app (m.method.getD []) (m.path.getD [])
          ⟨r, .fresh, world⟩).handling.response.toJsonStrWithoutBody lib with
      | none =>
          refine iff_of_true (hthrown ?_) ⟨by simp, ?_⟩
          · simp only [processed, hresult, htext]
          · rintro response text ⟨-, rfl, hsome⟩
            rw [htext] at hsome
            cases hsome
      | some text =>
          rw [messageKept_of_response hprepare ⟨hresult, rfl, htext⟩]
          constructor
          · intro hkeeps
            refine ⟨by simp, ?_⟩
            rintro response text' ⟨-, rfl, hsome⟩
            rw [htext] at hsome
            cases hsome
            exact hkeeps
          · intro h
            exact h.2 _ _ ⟨hresult, rfl, htext⟩

/-- Without a server nothing is asked. -/
theorem messageFits_of_not_admitted
    (h : ∀ server r, prepareMessage lib.parse query m .fresh ≠ (.ok (.admitted server), r)) :
    MessageFits outside app lib query m world w where
  filters := fun server r _ hprepare => absurd hprepare (h server r)
  host := fun server r _ _ hprepare => absurd hprepare (h server r)

theorem messageFits_of_admitted {server : RequestServer H F} {r : Request}
    (hprepare : prepareMessage lib.parse query m .fresh = (.ok (.admitted server), r)) :
    MessageFits outside app lib query m world w ↔
      (server.process app (m.method.getD []) (m.path.getD []) ⟨r, .fresh, world⟩).result ≠
        .error .other ∧
      ∀ response text, Produces app lib server m r world response text →
        KeepsText outside w (asciiBytes text) (asciiBytes response.body) := by
  rw [Ne, process_other_iff, not_exists]
  constructor
  · intro h
    refine ⟨?_, fun response text => h.host server r response text hprepare⟩
    rintro handler ⟨hhandler, hother⟩
    exact h.filters server r handler hprepare hhandler hother
  · rintro ⟨hfilters, hhost⟩
    refine ⟨fun server' r' handler hsame hhandler hother => ?_,
      fun server' r' response text hsame hproduces => ?_⟩
    · rw [hprepare] at hsame
      cases hsame
      exact hfilters handler ⟨hhandler, hother⟩
    · rw [hprepare] at hsame
      cases hsame
      exact hhost response text hproduces

end Kept

/-- **When a call for a decoded request does what it should.** It returns, with results or with an
error and no buffer left over, exactly where no filter throws anything but a `std::exception`, and
the host's second answer keeps the text. -/
theorem on_message_iff (outside : Nat → Nat → Bool) (app : Application H F W) (lib : JsonLibrary)
    (query : Str → Option (RequestServer H F)) (m : Message) (world : W) (w : HostWorld) :
    MessageKept outside app lib query m world w ↔
      MessageFits outside app lib query m world w := by
  rcases hprepare : prepareMessage lib.parse query m .fresh with ⟨result, r⟩
  cases result with
  | error e =>
      refine iff_of_true (fun _ _ h => ?_) (messageFits_of_not_admitted fun _ _ h => ?_)
      · rw [hprepare] at h
        cases h
      · rw [hprepare] at h
        cases h
  | ok admission =>
      cases admission with
      | refused code =>
          have houtcome : messageOutcome app lib query m world = .ok (.refused code) := by
            simp only [messageOutcome, hprepare]
          refine iff_of_true (messageKept_of_failed (prepareMessage_refused hprepare) houtcome rfl)
            (messageFits_of_not_admitted fun _ _ h => ?_)
          rw [hprepare] at h
          cases h
      | admitted server =>
          rw [messageFits_of_admitted hprepare]
          exact messageKept_of_admitted hprepare

/-- An application with one handler and one filter, which throws a number. -/
def throwingApplication : Application Unit Unit Unit where
  handle _ := pure ⟨⟩
  before _ := .raise .other
  after _ := pure ⟨⟩

/-- A request without headers and parameters. -/
def plainMessage : Message where
  serverId := some (str "1_s")
  method := some (str "GET")
  path := some (str "/")
  paramsJson := none
  headersJson := none
  body := none

/-- What a filter throws leaves the call where it is no `std::exception`. -/
theorem filter_escapes :
    ¬ ∀ (outside : Nat → Nat → Bool) (app : Application Unit Unit Unit) (lib : JsonLibrary)
      (query : Str → Option (RequestServer Unit Unit)) (m : Message) (w : HostWorld),
      MessageKept outside app lib query m ⟨⟩ w := by
  intro h
  obtain ⟨reply, w', hcall, -⟩ := h (fun _ _ => true) throwingApplication
    ⟨fun _ => none, fun _ => none⟩
    (fun _ => some ⟨registerAll [.get (str "/") (some ⟨⟩)], [⟨⟩]⟩) plainMessage
    ⟨fun _ => 0, fun _ => ⟨0, 0, 0, 0, fun _ => 0⟩, 0, []⟩ _ _ rfl
  cases hcall

/-! ## The call without pointers -/

/-- What `ServerProcessBridge` comes to, and nothing where it throws. -/
def serverProcessBridge (app : Application H F W) (m : Message) (world : W)
    (server : RequestServer H F) (r : Request) : Option Response :=
  let p := server.process app (m.method.getD []) (m.path.getD []) ⟨r, .fresh, world⟩
  match p.result with
  | .ok _ => some p.handling.response
  | .error _ => none

/-- The bytes of a text up to its first NUL are those of the text up to its first NUL. -/
theorem length_takeWhile_asciiBytes {text : Str} (h : ∀ ch ∈ text, ch.toNat < 256) :
    ((asciiBytes text).takeWhile fun byte => byte ≠ 0).length = (upTo nul text).length := by
  induction text with
  | nil => rfl
  | cons ch rest ih =>
      have hrest := ih fun c hc => h c (List.mem_cons_of_mem ch hc)
      have hbyte : ch.toNat < 256 := h ch List.mem_cons_self
      have hnul : UInt8.ofNat ch.toNat = 0 ↔ ch = nul := by
        constructor
        · intro hzero
          have hcode : ch.toNat % 256 = 0 := congrArg UInt8.toNat hzero
          rw [Nat.mod_eq_of_lt hbyte] at hcode
          exact Char.toNat_inj.1 hcode
        · rintro rfl
          rfl
      rw [asciiBytes, List.map_cons, upTo, List.takeWhile_cons]
      by_cases hch : ch = nul
      · rw [if_neg (by simpa using hnul.2 hch), if_pos hch]
        rfl
      · rw [if_pos (by simpa using mt hnul.1 hch), if_neg hch, List.length_cons, List.length_cons]
        exact congrArg (· + 1) hrest

/-- `StrndupOutside` copies exactly a text without NUL. -/
theorem textLength_asciiBytes_iff {text : Str} (h : ∀ ch ∈ text, ch.toNat < 256)
    (hlength : text.length + 1 < 2 ^ 64) :
    textLength (asciiBytes text) (((asciiBytes text).length + 1) % 2 ^ 64) =
        (asciiBytes text).length ↔
      (upTo nul text).length = text.length := by
  have hbytes : (asciiBytes text).length = text.length := List.length_map ..
  have hle := (upTo_sublist nul text).length_le
  rw [textLength, length_takeWhile_asciiBytes h, hbytes, Nat.mod_eq_of_lt hlength]
  omega

section Refines

variable {outside : Nat → Nat → Bool} {app : Application H F W} {lib : JsonLibrary}
  {query : Str → Option (RequestServer H F)} {m : Message} {world : W} {w w' : HostWorld}
  {reply : MessageReply}

/-- A whole text that has its buffer is handed over, and then the body. -/
theorem ofResponse_copied {response : Response} {text : Str}
    (htext : response.toJsonStrWithoutBody lib = some text)
    (hwhole : (upTo nul text).length = text.length) (stored : Allocation) :
    EcallReply.ofResponse lib ⟨.buffer, stored⟩ response =
      .withBody response.body stored text := by
  simp only [EcallReply.ofResponse, htext, if_neg (not_not.2 hwhole)]

/-- A whole text without a buffer of the host is refused, by the code of what the host gives. -/
theorem ofResponse_refused {response : Response} {text : Str}
    (htext : response.toJsonStrWithoutBody lib = some text)
    (hwhole : (upTo nul text).length = text.length) (stored : Allocation) :
    EcallReply.ofResponse lib ⟨.null, stored⟩ response = .failed (-7) ∧
      EcallReply.ofResponse lib ⟨.inside, stored⟩ response = .failed (-9) := by
  constructor
  · simp only [EcallReply.ofResponse, htext, if_neg (not_not.2 hwhole)]
  · simp only [EcallReply.ofResponse, htext, if_neg (not_not.2 hwhole)]

/-- A text with a NUL is not copied, whatever buffers there are. -/
theorem ofResponse_nul {response : Response} {text : Str}
    (htext : response.toJsonStrWithoutBody lib = some text)
    (hnul : (upTo nul text).length ≠ text.length) (buffers : HostBuffers) :
    EcallReply.ofResponse lib buffers response = .failed (-7) := by
  simp only [EcallReply.ofResponse, htext, if_pos hnul]

theorem replyMessage_nul {text : Str} (hchars : ∀ ch ∈ text, ch.toNat < 256)
    (hlength : text.length + 1 < 2 ^ 64) (hnul : (upTo nul text).length ≠ text.length)
    (body : List UInt8) (w : HostWorld) :
    replyMessage outside (.response (asciiBytes text) body) w = (.ok (.failed (-7)), w) := by
  have hnot : textLength (asciiBytes text) (((asciiBytes text).length + 1) % 2 ^ 64) ≠
      (asciiBytes text).length := mt (textLength_asciiBytes_iff hchars hlength).1 hnul
  have hstrndup : strndupOutside outside (some (asciiBytes text)) (asciiBytes text).length w =
      (.ok none, w) := by
    simp only [strndupOutside, if_pos hnot]
    rfl
  simp only [replyMessage]
  rw [Call.bind_apply, Call.attempt_apply, hstrndup]
  rfl

/-- The reply to a response is, but for its pointers, that of buffers which are to be had or not. -/
theorem replyMessage_refines {response : Response} {text : Str}
    (htext : response.toJsonStrWithoutBody lib = some text) (hchars : ∀ ch ∈ text, ch.toNat < 256)
    (hlength : text.length + 1 < 2 ^ 64)
    (hreply : replyMessage outside (.response (asciiBytes text) (asciiBytes response.body)) w =
      (.ok reply, w')) :
    ∃ buffers, (EcallReply.ofResponse lib buffers response).success = true ∧
      (EcallReply.ofResponse lib buffers response).ret = reply.ret ∧
      (reply.ret = 0 → (EcallReply.ofResponse lib buffers response).statusHeadersJson = some text ∧
        (EcallReply.ofResponse lib buffers response).body.getD [] = response.body) := by
  have hiff := textLength_asciiBytes_iff hchars hlength
  by_cases hcopies : w.CopiesText outside (asciiBytes text)
  · -- the text is copied out, and the body comes to its own buffer
    have hof := ofResponse_copied htext (hiff.1 hcopies.1)
    obtain ⟨w₁, hcopy, -⟩ := replyMessage_copies hcopies (asciiBytes response.body)
    rw [hcopy] at hreply
    by_cases hbody : response.body = []
    · rw [hbody, copyBody, if_pos (show asciiBytes [] = [] from rfl)] at hreply
      cases hreply
      refine ⟨⟨.buffer, .buffer⟩, ?_⟩
      rw [hof, hbody]
      exact ⟨rfl, rfl, fun _ => ⟨rfl, rfl⟩⟩
    · have hbytes : asciiBytes response.body ≠ [] := by
        rwa [asciiBytes, Ne, List.map_eq_nil_iff]
      have hsome : ¬ response.body.isEmpty = true := by rwa [List.isEmpty_iff]
      rcases copyBody_ends outside w.pointer hbytes w₁ with
        ⟨-, w₂, hdone, -⟩ | ⟨-, ret, w₂, hret, hfailed, -⟩
      · rw [hdone] at hreply
        cases hreply
        refine ⟨⟨.buffer, .buffer⟩, ?_⟩
        rw [hof, EcallReply.withBody, if_neg hsome]
        exact ⟨rfl, rfl, fun _ => ⟨rfl, rfl⟩⟩
      · rw [hfailed] at hreply
        cases hreply
        rcases hret with rfl | rfl
        · refine ⟨⟨.buffer, .null⟩, ?_⟩
          rw [hof, EcallReply.withBody, if_neg hsome]
          exact ⟨rfl, rfl, fun h => absurd h (by decide)⟩
        · refine ⟨⟨.buffer, .inside⟩, ?_⟩
          rw [hof, EcallReply.withBody, if_neg hsome]
          exact ⟨rfl, rfl, fun h => absurd h (by decide)⟩
  · by_cases hwhole : (upTo nul text).length = text.length
    · -- the host gives no buffer for the text
      obtain ⟨hofNull, hofInside⟩ := ofResponse_refused htext hwhole .null
      obtain ⟨ret, w₁, hret, hrefused, -⟩ :=
        replyMessage_refuses hcopies (asciiBytes response.body)
      rw [hrefused] at hreply
      cases hreply
      rcases hret with rfl | rfl
      · refine ⟨⟨.null, .null⟩, ?_⟩
        rw [hofNull]
        exact ⟨rfl, rfl, fun h => absurd h (by decide)⟩
      · refine ⟨⟨.inside, .null⟩, ?_⟩
        rw [hofInside]
        exact ⟨rfl, rfl, fun h => absurd h (by decide)⟩
    · rw [replyMessage_nul hchars hlength hwhole] at hreply
      cases hreply
      refine ⟨⟨.buffer, .buffer⟩, ?_⟩
      rw [ofResponse_nul htext hwhole]
      exact ⟨rfl, rfl, fun h => absurd h (by decide)⟩

/-- **One call, with pointers and without.** A call that returns has, but for its pointers, the
reply of `ssgxEcallHttpOnMessage` for buffers that the host gives or not: the same code, and the
texts that the pointers lead to where the host keeps them. The texts of the library are byte
strings, shorter than the memory. -/
theorem onMessage_refines
    (hcall : onMessage outside app lib query m world w = (.ok reply, w'))
    (htexts : ∀ r : Response, ∀ text, r.toJsonStrWithoutBody lib = some text →
      (∀ ch ∈ text, ch.toNat < 256) ∧ text.length + 1 < 2 ^ 64) :
    ∃ buffers, let e := ssgxEcallHttpOnMessage lib query (serverProcessBridge app m world) buffers m
      e.success = true ∧ e.ret = reply.ret ∧
        (reply.ret = 0 → ∃ text, e.statusHeadersJson = some text ∧
          (KeepsText outside w (asciiBytes text) (asciiBytes (e.body.getD [])) →
            HandsOver reply w' (asciiBytes text) (asciiBytes (e.body.getD [])))) := by
  rcases hprepare : prepareMessage lib.parse query m .fresh with ⟨result, r⟩
  -- the codes in front of the copies
  have hfailed : ∀ ret : Int, ret ≠ 0 →
      ((.ok (.failed ret), w) : Except Escape MessageReply × HostWorld) = (.ok reply, w') →
      ∀ e : EcallReply, e = .failed ret → e.success = true ∧ e.ret = reply.ret ∧
        (reply.ret = 0 → ∃ text, e.statusHeadersJson = some text ∧
          (KeepsText outside w (asciiBytes text) (asciiBytes (e.body.getD [])) →
            HandsOver reply w' (asciiBytes text) (asciiBytes (e.body.getD [])))) := by
    intro ret hret hreply e he
    cases hreply
    rw [he]
    exact ⟨rfl, rfl, fun h => absurd h hret⟩
  cases result with
  | error e =>
      simp only [onMessage, messageOutcome, hprepare] at hcall
      cases hcall
  | ok admission =>
      cases admission with
      | refused code =>
          simp only [onMessage, messageOutcome, hprepare] at hcall
          refine ⟨⟨.buffer, .buffer⟩, hfailed code (prepareMessage_refused hprepare) ?_ _ ?_⟩
          · exact hcall
          · simp only [ssgxEcallHttpOnMessage, hprepare]
      | admitted server =>
          have houtcome : messageOutcome app lib query m world =
              processed app lib server m r world := by
            simp only [messageOutcome, hprepare]
          simp only [onMessage, houtcome] at hcall
          simp only [ssgxEcallHttpOnMessage, hprepare]
          cases hresult : (server.process app (m.method.getD []) (m.path.getD [])
              ⟨r, .fresh, world⟩).result with
          | error thrown =>
              have hbridge : serverProcessBridge app m world server r = none := by
                simp only [serverProcessBridge, hresult]
              cases thrown with
              | exception what =>
                  simp only [processed, hresult] at hcall
                  refine ⟨⟨.buffer, .buffer⟩, hfailed (-9) (by decide) hcall _ ?_⟩
                  rw [hbridge]
                  rfl
              | other =>
                  simp only [processed, hresult] at hcall
                  cases hcall
          | ok u =>
              have hbridge : serverProcessBridge app m world server r =
                  some (server.process app (m.method.getD []) (m.path.getD [])
                    ⟨r, .fresh, world⟩).handling.response := by
                simp only [serverProcessBridge, hresult]
              rw [hbridge]
              simp only [processed, hresult] at hcall
              generalize (server.process app (m.method.getD []) (m.path.getD [])
                ⟨r, .fresh, world⟩).handling.response = response at hcall ⊢
              cases htext : response.toJsonStrWithoutBody lib with
              | none =>
                  simp only [htext] at hcall
                  refine ⟨⟨.buffer, .buffer⟩, hfailed (-9) (by decide) hcall _ ?_⟩
                  simp only [EcallReply.ofProcessed, EcallReply.ofResponse, htext]
              | some text =>
                  simp only [htext] at hcall
                  obtain ⟨hchars, hlength⟩ := htexts response text htext
                  obtain ⟨reply', w₁, hreply, hdelivers⟩ := replyMessage_delivers_iff outside w
                    (asciiBytes text) (asciiBytes response.body)
                  rw [hreply] at hcall
                  cases hcall
                  obtain ⟨buffers, hsuccess, hret, hdone⟩ :=
                    replyMessage_refines htext hchars hlength hreply
                  refine ⟨buffers, hsuccess, hret, fun hzero => ?_⟩
                  obtain ⟨hjson, hbody⟩ := hdone hzero
                  refine ⟨text, hjson, fun hkeeps => ?_⟩
                  simp only [EcallReply.ofProcessed, hbody] at hkeeps ⊢
                  exact (hdelivers.2 hkeeps).done hzero

end Refines

end Ssgx.Boundary
