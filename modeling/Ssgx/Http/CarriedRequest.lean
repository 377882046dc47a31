import Ssgx.Http.Serialization

/-!
# When the request text is the call's request

`Carries` compares the request text, read by the grammar, with the call. `Carried` is the condition
on the call: it names what `SendRequest` would have to check, and checks nothing of. The two are
equivalent for every call that gets as far as writing a request (`request_carries_iff`).
-/

set_option autoImplicit false

namespace Ssgx.Http

open Ssgx.Support

/-! ## The two sides -/

/-- The text is one request with nothing behind it: with the method, the target, the fields and the
body of the call, and no field twice. -/
def Carries (c : Client) (request method path : Str) (headers : TypeHeaders)
    (params : List (Str × Str)) (body contentType : Str) : Prop :=
  ∃ read : Support.Request, parseRequest request = some (read, []) ∧ read.head.method = method ∧
    read.head.target = pathWithParams path (paramTexts params) ∧
    read.head.pairs = givenPairs c.givenHost method headers body contentType ∧
    (read.head.pairs.map fun pair => lower pair.1).Nodup ∧ read.body = body

/-- The path and the query that stand in the text of a URL, up to a fragment, are this target: no
`?` follows the first one, and the query is not empty. -/
def ReadsTarget (text target : Str) : Prop := targetOf (pathAndQuery (restText text)) = target

/-- The calls whose request text is their request. -/
structure Carried (c : Client) (method path : Str) (headers : TypeHeaders)
    (params : List (Str × Str)) (body contentType : Str) : Prop where
  sends : method = str "GET" ∧ body = [] ∨ method = str "POST"
  target : isOriginForm (pathWithParams path (paramTexts params)) = true
  reads : ReadsTarget (c.urlText method path params) (pathWithParams path (paramTexts params))
  host : NamesHost c (c.urlText method path params)
  items : ∀ item ∈ headers.items, isToken item.1 = true ∧ isFieldValue item.2 = true
  typeValue : isFieldValue contentType = true
  names : NamesApart headers contentType
  connection : ConnectionExact headers
  framing : FramingApart method headers

/-! ## Paths and parameters -/

/-- A target of the right form comes from a path that begins with `/`. -/
theorem head_of_originForm {path : Str} {params : List Str}
    (h : isOriginForm (pathWithParams path params) = true) : path.head? = some '/' := by
  rw [isOriginForm, Bool.and_eq_true, decide_eq_true_eq] at h
  unfold pathWithParams at h
  simp only at h
  cases path with
  | nil =>
      split_ifs at h
      · cases h.1
      · cases h.1
  | cons first rest =>
      split_ifs at h
      · exact h.1
      · exact h.1

/-- What is sent of path and parameters are characters of the given. -/
theorem sentParams_sublist (method path : Str) (params : List (Str × Str)) :
    (pathWithParams path (sentParams method params)).Sublist
      (pathWithParams path (paramTexts params)) := by
  rw [sentParams]
  split_ifs
  · exact List.Sublist.refl _
  · show path.Sublist _
    unfold pathWithParams
    simp only
    split_ifs
    · exact List.Sublist.refl _
    · exact List.sublist_append_left _ _

/-- There is at most one `?`, and it is not at the end. -/
def KeepsMarks (target : Str) : Prop :=
  '?' ∉ behind '?' target ∧ (behind '?' target = [] → '?' ∉ target)

/-- The URL of a client whose host string is `scheme://authority` reads as the target that is sent
exactly where that keeps its marks. -/
theorem readsTarget_iff_keepsMarks {c : Client} {scheme authority method path : Str}
    {params : List (Str × Str)}
    (hhost : lower c.host ++ portText c.port = scheme ++ str "://" ++ authority)
    (hscheme : ':' ∉ scheme) (hslash : '/' ∉ authority) (hpath : path.head? = some '/')
    (hhash : '#' ∉ pathWithParams path (sentParams method params)) :
    ReadsTarget (c.urlText method path params) (pathWithParams path (sentParams method params)) ↔
      KeepsMarks (pathWithParams path (sentParams method params)) := by
  obtain ⟨rest, hrest⟩ := pathWithParams_of_slash hpath (sentParams method params)
  have htext : c.urlText method path params =
      scheme ++ ':' :: ('/' :: '/' :: (authority ++ '/' :: rest)) := by
    rw [Client.urlText, initUrl_eq, hrest, ← List.append_assoc, hhost]
    simp [str]
  have hrestText : restText (c.urlText method path params) = authority ++ '/' :: rest := by
    rw [htext, restText, behind_split hscheme]
    rfl
  have hnoHash : '#' ∉ rest := fun hmem => hhash (hrest ▸ List.mem_cons_of_mem _ hmem)
  have hparts : pathAndQuery (authority ++ '/' :: rest) = pathAndQuery ('/' :: rest) := by
    simp only [pathAndQuery]
    rw [behind_split hslash, behind_cons_self]
  have hmarks : KeepsMarks ('/' :: rest) ↔
      '?' ∉ behind '?' rest ∧ (behind '?' rest = [] → '?' ∉ rest) := by
    have hbehind : behind '?' ('/' :: rest) = behind '?' rest :=
      behind_append (show '?' ∉ ['/'] by decide) rest
    simp [KeepsMarks, hbehind]
  rw [ReadsTarget, hrestText, hparts, hrest, targetOf_eq_iff hnoHash, hmarks]

/-! ## The request line -/

/-- No end of a line stands behind an `H`. -/
def NoVersion (text : Str) : Prop := text.Pairwise fun a b => ¬ (a = 'H' ∧ b = '\r')

theorem toLower_ne_H (c : Char) : c.toLower ≠ 'H' := by
  intro h
  by_cases hupper : c.val ≥ 'A'.val ∧ c.val ≤ 'Z'.val
  · -- an upper-case letter is moved up by 32
    have hshifted : c.toLower.val = c.val + ('a'.val - 'A'.val) :=
      congrArg Char.val (dif_pos hupper)
    have hsum : c.val + 32 = 72 := hshifted.symm.trans (congrArg Char.val h)
    have hnat : (c.val.toNat + 32) % 2 ^ 32 = 72 := congrArg UInt32.toNat hsum
    have hlow : 65 ≤ c.val.toNat := UInt32.le_iff_toNat_le.1 hupper.1
    have hhigh : c.val.toNat ≤ 90 := UInt32.le_iff_toNat_le.1 hupper.2
    omega
  · have hsame : c.toLower = c := dif_neg hupper
    rw [hsame] at h
    subst h
    exact hupper (by decide)

/-- The text of a URL whose target has no end of a line: the client's host is in lower case. -/
theorem noVersion_urlText (c : Client) {method path : Str} {params : List (Str × Str)}
    (hcr : '\r' ∉ pathWithParams path (paramTexts params)) :
    NoVersion (c.urlText method path params) := by
  have hsent : '\r' ∉ pathWithParams path (sentParams method params) := fun hmem =>
    hcr ((sentParams_sublist method path params).subset hmem)
  have hhost : 'H' ∉ lower c.host ++ portText c.port := by
    intro hmem
    rcases List.mem_append.1 hmem with hmem | hmem
    · obtain ⟨ch, -, hch⟩ := List.mem_map.1 hmem
      exact toLower_ne_H ch hch
    · rw [portText] at hmem
      split_ifs at hmem
      · cases hmem
      · rcases List.mem_cons.1 hmem with heq | hmem
        · cases heq
        · exact not_mem_toText (by decide) (by decide) c.port hmem
  rw [Client.urlText, initUrl_eq, NoVersion, ← List.append_assoc, List.pairwise_append]
  refine ⟨?_, ?_, ?_⟩
  · exact List.pairwise_of_forall_mem_list fun a ha b _ h => hhost (h.1 ▸ ha)
  · exact List.pairwise_of_forall_mem_list fun a _ b hb h => hsent (h.2 ▸ hb)
  · exact fun a ha b _ h => hhost (h.1 ▸ ha)

theorem withoutSlashes_sublist (text : Str) : (withoutSlashes text).Sublist text := by
  unfold withoutSlashes
  split
  · exact (List.Sublist.refl _).cons '/' |>.cons '/'
  · exact List.Sublist.refl _

/-- Nor is there one in the target that is sent. -/
theorem NoVersion.target {text : Str} (h : NoVersion text) :
    NoVersion (targetOf (pathAndQuery (restText text))) := by
  have hbehind : (behind '/' (restText text)).Sublist text :=
    ((behind_sublist '/' _).trans (withoutSlashes_sublist _)).trans (behind_sublist ':' text)
  refine List.Pairwise.sublist (targetOf_sublist _) (List.pairwise_cons.2 ⟨?_, h.sublist hbehind⟩)
  rintro b - ⟨heq, -⟩
  cases heq

/-- The rest of a request line does not stand in such a text. -/
theorem NoVersion.behind_ne {text : Str} (h : NoVersion text) (tail : Str) :
    behind ' ' text ≠ httpVersion ++ crlf ++ tail := by
  intro heq
  have hversion : ['H', '\r'].Sublist text := by
    have hfront : ['H', '\r'].Sublist (httpVersion ++ crlf) := by decide
    have hbehind := behind_sublist ' ' text
    rw [heq] at hbehind
    exact (hfront.trans (List.sublist_append_left _ tail)).trans hbehind
  exact List.pairwise_iff_forall_sublist.1 h hversion ⟨rfl, rfl⟩

/-- **The request line that is read.** The method and the target that are read in a request line are
those that were written: the version ends with the line, and stands nowhere else. -/
theorem read_line {read : RequestHead} {sent target rest more : Str} (hsent : ' ' ∉ sent)
    (htarget : NoVersion target)
    (hread : parseHead (sent ++ ' ' :: (target ++ ' ' :: (httpVersion ++ (crlf ++ more)))) =
      some (read, rest)) :
    read.method = sent ∧ read.target = target := by
  obtain ⟨tail, htail⟩ := parseHead_line hread
  obtain ⟨hmethod, hspace⟩ := read.noSpace
  have hfirst := congrArg (upTo ' ') htail
  rw [upTo_split hsent, upTo_split hmethod] at hfirst
  have hsecond := congrArg (behind ' ') htail
  rw [behind_split hsent, behind_split hmethod] at hsecond
  have hupTo := congrArg (upTo ' ') hsecond
  rw [upTo_append_cons, upTo_split hspace] at hupTo
  refine ⟨hfirst.symm, ?_⟩
  by_cases hmem : ' ' ∈ target
  · -- the version of the line would stand in the target
    exfalso
    rw [← upTo_behind hmem, List.append_assoc, hupTo, List.cons_append] at hsecond
    have hversion := (List.cons.inj (List.append_cancel_left hsecond)).2
    rw [← List.append_assoc httpVersion crlf tail] at hversion
    obtain ⟨front, hfront, hback⟩ | ⟨front, hfront, -⟩ := List.append_eq_append_iff.1 hversion
    · rcases front with - | ⟨ch, front⟩
      · exact htarget.behind_ne [] (by rw [hfront, List.append_nil, List.append_nil])
      · obtain ⟨rfl, -⟩ := List.cons.inj hback
        have hblank : ' ' ∈ httpVersion ++ crlf := by rw [hfront]; simp
        exact absurd hblank (by decide)
    · exact htarget.behind_ne front hfront
  · rw [← hupTo, upTo_of_not_mem hmem]

/-! ## The text that is sent -/

section Ready

variable {c : Client} {ndebug : Bool} {io : ExchangeIo} {method path : Str} {headers : TypeHeaders}
  {params : List (Str × Str)} {body contentType : Str} {url : HttpUrl} {isHttps : Bool}
  {request : Str}

/-- The fields that the request of a prepared call has. -/
def writtenPairs (method : Str) (url : HttpUrl) (headers : TypeHeaders) (body contentType : Str) :
    List (Str × Str) :=
  sentPairs (sentMethod method) url (callerPairs headers contentType) (sentBody method body)

/-- The request of a prepared call, in lines. -/
theorem ready_text
    (hready : c.prepared ndebug io method path headers params body contentType =
      .ready url isHttps request) :
    request = linesText ((sentMethod method ++ ' ' :: (requestTarget url ++ ' ' :: httpVersion)) ::
        (writtenPairs method url headers body contentType).map pairText) ++
      (crlf ++ sentBody method body) := by
  obtain ⟨-, -, -, hrequest⟩ := Client.prepared_ready hready
  rw [hrequest, headerLines_eq, initRequest_eq]
  rfl

/-- The target and the host line of a prepared call. -/
theorem ready_parts
    (hready : c.prepared ndebug io method path headers params body contentType =
      .ready url isHttps request) :
    requestTarget url = targetOf (pathAndQuery (restText (c.urlText method path params))) ∧
      isFieldValue (hostLine url) = true ∧
      (hostLine url = c.givenHost ↔ NamesHost c (c.urlText method path params)) := by
  obtain ⟨hparse, hvalid, -, -⟩ := Client.prepared_ready hready
  obtain ⟨⟨hscheme, -, hport, hinteger⟩, hpath, hquery⟩ := parseUrl_parts hparse hvalid
  refine ⟨requestTarget_eq hpath hquery, ?_, hostLine_eq_givenHost_iff hparse hvalid⟩
  have hnumber := port_eq_of_target hscheme hport hinteger
  rw [hostLine_eq rfl hnumber]
  generalize portNumber _ _ = number
  obtain ⟨hbare, hwithPort⟩ := isFieldValue_host (parseUrl_hostChars hparse) number
  split_ifs
  · exact hbare
  · exact hwithPort

/-- The fields of the two lists pass the checks with the caller's. -/
theorem framedPairs_ok {host : Str} {pairs : List (Str × Str)} {length : Nat} {P Q : Prop}
    [Decidable P] [Decidable Q] (hhost : isFieldValue host = true)
    (hpairs : ∀ pair ∈ pairs, isToken pair.1 = true ∧ isFieldValue pair.2 = true) :
    ∀ pair ∈ (str "Host", host) :: (str "Accept", str "*/*") ::
        (pairs ++ ((if P then [] else [(str "Connection", str "Keep-Alive")]) ++
          (if Q then [(str "Content-Length", decimal length)] else []))),
      isToken pair.1 = true ∧ isFieldValue pair.2 = true := by
  intro pair hmem
  simp only [List.mem_cons, List.mem_append] at hmem
  rcases hmem with rfl | rfl | hmem | hmem | hmem
  · exact ⟨rfl, hhost⟩
  · exact ⟨by decide, by decide⟩
  · exact hpairs pair hmem
  · split_ifs at hmem
    · cases hmem
    · rw [List.mem_singleton.1 hmem]
      exact ⟨by decide, by decide⟩
  · split_ifs at hmem
    · rw [List.mem_singleton.1 hmem]
      exact ⟨rfl, isFieldValue_of_all (toText_fieldChar length)⟩
    · cases hmem

theorem callerPairs_ok_iff :
    (∀ pair ∈ callerPairs headers contentType,
        isToken pair.1 = true ∧ isFieldValue pair.2 = true) ↔
      (∀ item ∈ headers.items, isToken item.1 = true ∧ isFieldValue item.2 = true) ∧
        isFieldValue contentType = true := by
  simp only [callerPairs]
  constructor
  · intro h
    refine ⟨fun item hitem => h item (List.mem_append_left _ hitem), ?_⟩
    by_cases hempty : contentType = []
    · rw [hempty]
      decide
    · rw [if_neg hempty] at h
      exact (h _ (List.mem_append_right _ List.mem_cons_self)).2
  · rintro ⟨hitems, htype⟩ pair hmem
    rcases List.mem_append.1 hmem with hmem | hmem
    · exact hitems pair hmem
    · split_ifs at hmem
      · cases hmem
      · rw [List.mem_singleton.1 hmem]
        exact ⟨rfl, htype⟩

/-- The caller's fields are among those of the call. -/
theorem callerPairs_ok_of_given
    {host : Str} (h : ∀ pair ∈ givenPairs host method headers body contentType,
      isToken pair.1 = true ∧ isFieldValue pair.2 = true) :
    ∀ pair ∈ callerPairs headers contentType,
      isToken pair.1 = true ∧ isFieldValue pair.2 = true := by
  intro pair hmem
  exact h pair (List.mem_cons_of_mem _ (List.mem_cons_of_mem _ (List.mem_append_left _ hmem)))

theorem sentMethod_cases (method : Str) :
    sentMethod method = str "GET" ∨ sentMethod method = str "POST" := by
  simp only [sentMethod]
  split_ifs
  · exact Or.inl rfl
  · exact Or.inr rfl

/-- The two lists of fields agree where the host lines do, and the client's own fields. -/
theorem writtenPairs_eq_iff {host : Str} (hmethod : sentMethod method = method)
    (hbody : sentBody method body = body) (hcolon : ∀ item ∈ headers.items, ':' ∉ item.1) :
    writtenPairs method url headers body contentType =
        givenPairs host method headers body contentType ↔
      hostLine url = host ∧ ConnectionExact headers := by
  have hput : (decide (method = str "POST") || decide (method = str "PUT")) =
      decide (method = str "POST") := by
    rcases sentMethod_cases method with h | h
    · rw [← hmethod, h]
      decide
    · rw [← hmethod, h]
      decide
  simp only [writtenPairs, sentPairs, givenPairs]
  rw [hmethod, hbody, ← headerLines_eq, hput]
  simp only [List.cons.injEq, Prod.mk.injEq, true_and, List.append_cancel_left_eq,
    decide_eq_true_eq, List.append_cancel_right_eq]
  rw [← hasConnectionHeader_caller_iff contentType hcolon]
  refine and_congr_right fun _ => ?_
  cases hasConnectionHeader (headerLines headers contentType) with
  | true => cases headers.items.any (hasName (str "connection")) <;> simp
  | false => cases headers.items.any (hasName (str "connection")) <;> simp

/-- **What is read back.** A text that begins with this request line, whose fields pass the checks,
has the head that was written. -/
theorem read_head {read : RequestHead} {target rest body : Str} {pairs : List (Str × Str)}
    (hread : parseHead (linesText ((sentMethod method ++ ' ' :: (target ++ ' ' :: httpVersion)) ::
      pairs.map pairText) ++ (crlf ++ body)) = some (read, rest))
    (htarget : isOriginForm target = true)
    (hpairs : ∀ pair ∈ pairs, isToken pair.1 = true ∧ isFieldValue pair.2 = true) :
    read.pairs = pairs ∧ rest = body := by
  obtain ⟨fields, rfl⟩ := exists_fields hpairs
  have htoken : isToken (sentMethod method) = true := by
    rcases sentMethod_cases method with h | h
    · rw [h]
      decide
    · rw [h]
      decide
  have hwritten := parseHead_text ⟨sentMethod method, target, fields, htoken, htarget⟩ body
  rw [RequestHead.text_eq, List.append_assoc] at hwritten
  have hsame := hread.symm.trans hwritten
  simp only [Option.some.injEq, Prod.mk.injEq] at hsame
  obtain ⟨rfl, rfl⟩ := hsame
  exact ⟨rfl, rfl⟩

/-- From left to right: a text that is the call's request shows what the call gives. -/
theorem Carries.carried
    (hready : c.prepared ndebug io method path headers params body contentType =
      .ready url isHttps request)
    (h : Carries c request method path headers params body contentType) :
    Carried c method path headers params body contentType := by
  obtain ⟨read, hparse, hmethod, htarget, hpairs, hnodup, hbody⟩ := h
  rw [parseRequest_eq_some_iff, List.append_nil, ready_text hready] at hparse
  obtain ⟨hrequestTarget, hhostValue, hhost⟩ := ready_parts hready
  have horigin := read.head.originForm
  rw [htarget] at horigin
  have hversion : NoVersion (requestTarget url) := by
    rw [hrequestTarget]
    exact (noVersion_urlText c (not_mem_target horigin (by decide) (by decide) (by decide))).target
  -- the request line
  have hline := hparse
  rw [linesText_cons, List.append_assoc, List.append_assoc, List.cons_append, List.append_assoc,
    List.cons_append, List.append_assoc] at hline
  have hblank : ' ' ∉ sentMethod method := by
    rcases sentMethod_cases method with hget | hpost
    · rw [hget]
      exact (by decide : ' ' ∉ str "GET")
    · rw [hpost]
      exact (by decide : ' ' ∉ str "POST")
  obtain ⟨hsent, hwhole⟩ := read_line hblank hversion hline
  rw [hmethod] at hsent
  rw [htarget] at hwhole
  -- what was written is read back, so the fields and the body that are read are the written ones
  obtain ⟨hitems, htype⟩ :=
    callerPairs_ok_iff.1 (callerPairs_ok_of_given (hpairs ▸ read.head.pairs_ok))
  have hcaller := callerPairs_ok_iff.2 ⟨hitems, htype⟩
  obtain ⟨hwritten, hsentBody⟩ := read_head hparse (hwhole ▸ horigin)
    (framedPairs_ok hhostValue hcaller)
  rw [hbody] at hsentBody
  have hlists : writtenPairs method url headers body contentType =
      givenPairs c.givenHost method headers body contentType := by
    rw [← hpairs]
    exact hwritten.symm
  obtain ⟨hhostLine, hconnection⟩ := (writtenPairs_eq_iff hsent.symm hsentBody.symm
    fun item hitem => not_mem_token (hitems item hitem).1 (by decide)).1 hlists
  have hsends : method = str "GET" ∧ body = [] ∨ method = str "POST" := by
    rcases sentMethod_cases method with hget | hpost
    · have hmethodGet := hsent.trans hget
      refine Or.inl ⟨hmethodGet, ?_⟩
      rw [hsentBody, sentBody, if_pos hmethodGet]
    · exact Or.inr (hsent.trans hpost)
  rw [hpairs] at hnodup
  -- the body that was read has the length that the fields announce
  have hframed := read.framed
  rw [hpairs, hbody, bodyLength_givenPairs_iff hsends] at hframed
  exact ⟨hsends, horigin, hrequestTarget.symm.trans hwhole.symm, hhost.1 hhostLine, hitems, htype,
    ((givenPairs_nodup_iff ..).1 hnodup).1, hconnection, hframed⟩

/-- From right to left: what is written for such a call is read back. -/
theorem Carried.carries
    (hready : c.prepared ndebug io method path headers params body contentType =
      .ready url isHttps request)
    (h : Carried c method path headers params body contentType) :
    Carries c request method path headers params body contentType := by
  obtain ⟨hrequestTarget, hhostValue, hhost⟩ := ready_parts hready
  have hwhole : requestTarget url = pathWithParams path (paramTexts params) :=
    hrequestTarget.trans h.reads
  have hmethod : sentMethod method = method := by
    rcases h.sends with ⟨rfl, -⟩ | rfl
    · rfl
    · rfl
  have hbody : sentBody method body = body := by
    rcases h.sends with ⟨rfl, rfl⟩ | rfl
    · rfl
    · rfl
  -- the fields that are written are those of the call
  have hlists : writtenPairs method url headers body contentType =
      givenPairs c.givenHost method headers body contentType :=
    (writtenPairs_eq_iff hmethod hbody fun item hitem =>
      not_mem_token (h.items item hitem).1 (by decide)).2 ⟨hhost.2 h.host, h.connection⟩
  have hcaller := callerPairs_ok_iff.2 ⟨h.items, h.typeValue⟩
  have hgivenOk : ∀ pair ∈ givenPairs c.givenHost method headers body contentType,
      isToken pair.1 = true ∧ isFieldValue pair.2 = true :=
    framedPairs_ok (hhost.2 h.host ▸ hhostValue) hcaller
  obtain ⟨fields, hfields⟩ := exists_fields hgivenOk
  have htoken : isToken method = true := by
    rcases h.sends with ⟨rfl, -⟩ | rfl
    · decide
    · decide
  have hnodup := (givenPairs_nodup_iff c.givenHost method headers body contentType).2
    ⟨h.names, fun hpost item hitem => Bool.eq_false_iff.2 fun hlength =>
      absurd ((h.framing.length item hitem hlength).1.symm.trans hpost) (by decide)⟩
  -- the request of the call exists, and its text is what was written
  obtain ⟨head, hheadMethod, hheadTarget, hpairs⟩ : ∃ head : RequestHead, head.method = method ∧
      head.target = pathWithParams path (paramTexts params) ∧
      head.pairs = givenPairs c.givenHost method headers body contentType :=
    ⟨⟨method, pathWithParams path (paramTexts params), fields, htoken, h.target⟩, rfl, rfl, hfields⟩
  have hframed : bodyLength head.pairs = some body.length := by
    rw [hpairs]
    exact (bodyLength_givenPairs_iff h.sends).2 h.framing
  have htext : request = head.text ++ body ++ [] := by
    rw [ready_text hready, List.append_nil, RequestHead.text_eq, RequestHead.line, hlists, hpairs,
      hheadMethod, hheadTarget, hwhole, hmethod, hbody, List.append_assoc]
  refine ⟨⟨head, body, hframed⟩, ?_, hheadMethod, hheadTarget, hpairs, ?_, rfl⟩
  · rw [htext]
    exact parseRequest_text ⟨head, body, hframed⟩ []
  · show (head.pairs.map fun pair => lower pair.1).Nodup
    rw [hpairs]
    exact hnodup

/-- **The request text.** For every client and every call that gets as far as writing a request, the
text is the request of the call exactly where the call is as `Carried` says. -/
theorem request_carries_iff
    (hready : c.prepared ndebug io method path headers params body contentType =
      .ready url isHttps request) :
    Carries c request method path headers params body contentType ↔
      Carried c method path headers params body contentType :=
  ⟨fun h => h.carried hready, fun h => h.carries hready⟩

end Ready

/-- The client for `http://0.0.0.0:83`. -/
def localClient : Client := ⟨str "http://0.0.0.0:83", -1, []⟩

/-- What a `POST` of two bytes with one header writes. -/
theorem prepared_post :
    localClient.prepared true (.succeeding [1000] []) (str "POST") (str "/a?b")
        ⟨[(str "X", str "1")], by decide⟩ [] (str "hi") [] =
      .ready ⟨true, ⟨str "http", [], [], str "0.0.0.0", str "83", str "/a", str "b", [], 83⟩⟩ false
        (str "POST /a?b HTTP/1.1\r\nHost: 0.0.0.0:83\r\nAccept: */*\r\nX: 1\r\n" ++
          str "Connection: Keep-Alive\r\nContent-Length: 2\r\n\r\nhi") := by
  rfl

/-- The target of this `POST` is read in its URL as it is sent. -/
theorem post_readsTarget :
    ReadsTarget (localClient.urlText (str "POST") (str "/a?b") [])
      (pathWithParams (str "/a?b") (sentParams (str "POST") [])) := by
  have hhost : lower localClient.host ++ portText localClient.port =
      str "http" ++ str "://" ++ str "0.0.0.0:83" := rfl
  exact (readsTarget_iff_keepsMarks hhost (by decide) (by decide) rfl (by decide)).2
    (by unfold KeepsMarks; decide)

/-- This `POST` is such a call. -/
theorem request_carries_post :
    Carries localClient
      (str "POST /a?b HTTP/1.1\r\nHost: 0.0.0.0:83\r\nAccept: */*\r\nX: 1\r\n" ++
        str "Connection: Keep-Alive\r\nContent-Length: 2\r\n\r\nhi")
      (str "POST") (str "/a?b") ⟨[(str "X", str "1")], by decide⟩ [] (str "hi") [] := by
  refine (request_carries_iff prepared_post).2 ?_
  exact {
    sends := Or.inr rfl
    target := by decide
    reads := post_readsTarget
    host := ⟨by decide, by decide⟩
    items := by decide
    typeValue := by decide
    names := ⟨by decide, by decide, fun h => absurd rfl h⟩
    connection := by unfold ConnectionExact; decide
    framing := ⟨by decide, by decide⟩ }

/-- A header whose value has the end of a line in it. -/
def splittingHeaders : TypeHeaders := ⟨[(str "A", str "b\r\nC: d")], by decide⟩

/-- What a `GET` with this header writes. -/
theorem prepared_splitting :
    (Client.forHost (str "http") (str "h") (-1) []).prepared true (.succeeding [1000] [])
        (str "GET") (str "/") splittingHeaders [] [] [] =
      .ready ⟨true, ⟨str "http", [], [], str "h", [], str "/", [], [], 0⟩⟩ false
        (str "GET / HTTP/1.1\r\nHost: h\r\nAccept: */*\r\nA: b\r\nC: d\r\n" ++
          str "Connection: Keep-Alive\r\n\r\n") := by
  rfl

/-- This request is read with a field `C` that nobody has given. -/
theorem header_splits_request :
    (Client.forHost (str "http") (str "h") (-1) []).prepared true (.succeeding [1000] [])
        (str "GET") (str "/") splittingHeaders [] [] [] =
      .ready ⟨true, ⟨str "http", [], [], str "h", [], str "/", [], [], 0⟩⟩ false
        (str "GET / HTTP/1.1\r\nHost: h\r\nAccept: */*\r\nA: b\r\nC: d\r\n" ++
          str "Connection: Keep-Alive\r\n\r\n") ∧
    (parseRequest (str "GET / HTTP/1.1\r\nHost: h\r\nAccept: */*\r\nA: b\r\nC: d\r\n" ++
        str "Connection: Keep-Alive\r\n\r\n")).map (fun read => read.1.head.pairs) =
      some [(str "Host", str "h"), (str "Accept", str "*/*"), (str "A", str "b"),
        (str "C", str "d"), (str "Connection", str "Keep-Alive")] ∧
    ¬ Carries (Client.forHost (str "http") (str "h") (-1) [])
      (str "GET / HTTP/1.1\r\nHost: h\r\nAccept: */*\r\nA: b\r\nC: d\r\n" ++
        str "Connection: Keep-Alive\r\n\r\n") (str "GET") (str "/") splittingHeaders [] [] [] := by
  refine ⟨prepared_splitting, by decide, ?_⟩
  intro h
  have hvalue := (h.carried prepared_splitting).items _ List.mem_cons_self
  exact absurd hvalue.2 (by decide)

end Ssgx.Http
