import Mathlib.Data.List.Nodup
import Ssgx.Http.Target
import Ssgx.Http.UrlText
import Ssgx.Support.RequestGrammar

/-!
# The request text

`InitRequest` writes the request text from a URL that was written and parsed before, and from header
lines that are texts of the caller. The text is read here by the grammar of HTTP/1.1
(`parseRequest`), and compared with the call: `Carries` says that it is one request, with the
method, target, fields and body of the call, and nothing behind it.

`request_carries_iff` gives the exact condition on the call, for every client. From left to right, a
request that is read has checked fields and a checked target, so what the caller gave passes the
checks, and then the text that was sent is the text of a head of its own; from right to left,
`parseRequest_text` reads back what was written.
-/

set_option autoImplicit false

namespace Ssgx.Http

open Ssgx.Support

/-! ## The text in lines -/

/-- The fields that `InitRequest` writes, around those of the caller. -/
def sentPairs (method : Str) (url : HttpUrl) (pairs : List (Str × Str)) (body : Str) :
    List (Str × Str) :=
  (str "Host", hostLine url) :: (str "Accept", str "*/*") ::
    (pairs ++
      ((if hasConnectionHeader (pairs.map pairText) then []
        else [(str "Connection", str "Keep-Alive")]) ++
        (if method = str "POST" || method = str "PUT" then
          [(str "Content-Length", decimal body.length)] else [])))

theorem linesText_cons (line : Str) (lines : List Str) :
    linesText (line :: lines) = line ++ (crlf ++ linesText lines) := by
  rw [linesText, List.flatMap_cons, List.append_assoc]
  rfl

theorem linesText_append (front back : List Str) :
    linesText (front ++ back) = linesText front ++ linesText back := List.flatMap_append

/-- The line of a text and a text that stands behind it. -/
theorem pairText_append (name value tail : Str) :
    pairText (name, value) ++ tail = name ++ (str ": " ++ (value ++ tail)) := by
  rw [pairText, List.append_assoc, List.append_assoc]

/-- The request text is a head in lines, an empty line, and the body. -/
theorem initRequest_eq (method : Str) (url : HttpUrl) (pairs : List (Str × Str)) (body : Str) :
    initRequest method url (pairs.map pairText) body =
      linesText ((method ++ ' ' :: (requestTarget url ++ ' ' :: httpVersion)) ::
        (sentPairs method url pairs body).map pairText) ++ (crlf ++ body) := by
  -- each piece that is written in one string is a name, a separator and a value
  have hhost : ∀ tail, str "Host: " ++ tail = str "Host" ++ (str ": " ++ tail) := fun _ => rfl
  have haccept : ∀ tail, str "Accept: */*" ++ tail =
      str "Accept" ++ (str ": " ++ (str "*/*" ++ tail)) := fun _ => rfl
  have hkeep : (if hasConnectionHeader (pairs.map pairText) then []
        else str "Connection: Keep-Alive" ++ crlf) =
      linesText ((if hasConnectionHeader (pairs.map pairText) then []
        else [(str "Connection", str "Keep-Alive")]).map pairText) := by
    split_ifs
    · rfl
    · rfl
  have hlength : (if method = str "POST" || method = str "PUT" then
        str "Content-Length: " ++ (decimal body.length ++ crlf) else []) =
      linesText ((if method = str "POST" || method = str "PUT" then
        [(str "Content-Length", decimal body.length)] else []).map pairText) := by
    split_ifs
    · rw [List.map_singleton, linesText_cons, pairText_append]
      rfl
    · rfl
  simp only [initRequest, sentPairs]
  rw [hkeep, hlength, hhost, haccept]
  simp only [List.map_cons, List.map_append, linesText_cons, linesText_append, pairText_append,
    List.append_assoc, List.cons_append]
  rfl

/-! ## The target -/

/-- The target that is written for a URL whose path and query are these. -/
def targetOf (parts : Str × Str) : Str :=
  '/' :: parts.1 ++ (if parts.2.isEmpty then [] else '?' :: parts.2)

theorem requestTarget_eq {url : HttpUrl} {parts : Str × Str} (hpath : url.url.path = '/' :: parts.1)
    (hquery : url.url.query = parts.2) : requestTarget url = targetOf parts := by
  simp only [requestTarget, targetOf]
  rw [hpath, hquery]
  by_cases hempty : parts.2.isEmpty = true
  · rw [if_pos hempty, if_pos hempty, List.append_nil]
  · rw [if_neg hempty, if_neg hempty]

/-- The target has only characters of the text, in their order, behind its first `/`. -/
theorem targetOf_sublist (rest : Str) :
    (targetOf (pathAndQuery rest)).Sublist ('/' :: behind '/' rest) := by
  unfold targetOf pathAndQuery
  generalize behind '/' rest = text
  have hhash := upTo_sublist '#' text
  generalize upTo '#' text = kept at hhash
  simp only [List.cons_append]
  refine (List.Sublist.trans ?_ hhash).cons_cons '/'
  split_ifs with hempty
  · rw [List.append_nil]
    exact upTo_sublist '?' kept
  · -- a query that is not empty stands behind a mark
    have hmark : '?' ∈ kept := by
      by_contra hno
      rw [behind_of_not_mem hno] at hempty
      exact hempty rfl
    have hfilter : ((behind '?' kept).filter (· ≠ '?')).Sublist (behind '?' kept) :=
      List.filter_sublist
    have hjoined := (hfilter.cons_cons '?').append_left (upTo '?' kept)
    rwa [upTo_behind hmark] at hjoined

/-- The target of a URL without a fragment is written as it was given exactly where no `?` follows
the first one, and the query is not empty. -/
theorem targetOf_eq_iff {rest : Str} (hhash : '#' ∉ rest) :
    targetOf (pathAndQuery ('/' :: rest)) = '/' :: rest ↔
      '?' ∉ behind '?' rest ∧ (behind '?' rest = [] → '?' ∉ rest) := by
  unfold targetOf pathAndQuery
  rw [behind_cons_self, upTo_of_not_mem hhash]
  by_cases hmark : '?' ∈ rest
  · have hsplit := upTo_behind hmark
    generalize upTo '?' rest = path at hsplit ⊢
    generalize behind '?' rest = query at hsplit ⊢
    subst hsplit
    simp only [List.cons_append, List.cons.injEq, true_and]
    constructor
    · intro h
      have htail := List.append_cancel_left h
      -- an empty query is written without its mark, so the target is shorter than given
      split_ifs at htail with hempty
      have hquery := (List.cons.inj htail).2
      have hno : '?' ∉ query := by
        rw [← hquery]
        simp
      refine ⟨hno, ?_⟩
      rintro rfl
      exact absurd rfl hempty
    · rintro ⟨hno, hsome⟩
      have hquery : query.filter (· ≠ '?') = query := by
        apply List.filter_eq_self.2
        intro c hc
        exact decide_eq_true fun heq => hno (heq ▸ hc)
      have hne : query ≠ [] := fun heq => hsome heq hmark
      rw [hquery, if_neg (by simpa using hne)]
  · rw [upTo_of_not_mem hmark, behind_of_not_mem hmark]
    simp [hmark]

/-! ## The host -/

/-- The scheme in the host string of the client, which is put in lower case. -/
def Client.scheme (c : Client) : Str := schemeText (lower c.host)

/-- The name in the host string of the client. -/
def Client.givenName (c : Client) : Str := hostOf (authorityText (lower c.host))

/-- The port that the client is made for: its own, or else the one behind the name in its host
string, or else the one of the scheme. -/
def Client.givenPort (c : Client) : Int :=
  if c.port ≠ -1 then c.port
  else if portOf (authorityText (lower c.host)) = [] then defaultPort c.scheme
  else ofDecimal (portOf (authorityText (lower c.host)))

/-- The value that the `Host` field has for this client. -/
def Client.givenHost (c : Client) : Str :=
  if c.givenPort = defaultPort c.scheme then c.givenName
  else c.givenName ++ ':' :: toText c.givenPort

/-- The text of a URL leads to the client's `Host` line: it has the client's name, and a port that
the line leaves out where the client's is the one of the scheme, and else the client's. -/
structure NamesHost (c : Client) (text : Str) : Prop where
  name : hostRead (restText text) = c.givenName
  port : let number := portNumber (schemeText text) (portRead (restText text))
    (number = 80 ∨ number = 443) ∧ c.givenPort = defaultPort c.scheme ∨
      (number ≠ 80 ∧ number ≠ 443) ∧ c.givenPort = number

/-- The `Host` line of a URL, from its host and the number of its port. -/
theorem hostLine_eq {url : HttpUrl} {name : Str} {number : Nat} (hname : url.url.hostname = name)
    (hport : url.port = decimal number) :
    hostLine url =
      if number = 80 ∨ number = 443 then name else name ++ ':' :: decimal number := by
  have h80 : decimal number = str "80" ↔ number = 80 :=
    ⟨fun h => decimal_injective (n := 80) h, fun h => by rw [h]; rfl⟩
  have h443 : decimal number = str "443" ↔ number = 443 :=
    ⟨fun h => decimal_injective (n := 443) h, fun h => by rw [h]; rfl⟩
  simp only [hostLine]
  rw [hname, hport]
  simp only [Bool.or_eq_true, List.isEmpty_iff, decimal_ne_nil, decide_eq_true_eq, h80, h443,
    false_or]

theorem defaultPort_cases (scheme : Str) : defaultPort scheme = 80 ∨ defaultPort scheme = 443 := by
  simp only [defaultPort]
  split_ifs
  · exact Or.inr rfl
  · exact Or.inl rfl

/-- A host, and a host with a port behind it, are told apart by the colon. -/
theorem host_eq_iff {name name' : Str} (hname : ':' ∉ name) (hname' : ':' ∉ name')
    (port port' : Str) :
    (name ++ ':' :: port = name' ++ ':' :: port' ↔ name = name' ∧ port = port') ∧
      name ≠ name' ++ ':' :: port' ∧ name ++ ':' :: port ≠ name' := by
  refine ⟨⟨fun h => ?_, ?_⟩, ?_, ?_⟩
  · have hfront := congrArg (upTo ':') h
    have hback := congrArg (behind ':') h
    rw [upTo_split hname, upTo_split hname'] at hfront
    rw [behind_split hname, behind_split hname'] at hback
    exact ⟨hfront, hback⟩
  · rintro ⟨rfl, rfl⟩
    rfl
  · rintro rfl
    simp at hname
  · rintro rfl
    simp at hname'

/-- A URL's host line is the one of the client exactly where its text `NamesHost`. -/
theorem hostLine_eq_givenHost_iff {c : Client} {ndebug : Bool} {text : Str} {url : HttpUrl}
    (h : parseUrl ndebug text = some url) (hvalid : url.valid = true) :
    hostLine url = c.givenHost ↔ NamesHost c text := by
  obtain ⟨⟨hscheme, hhost, hport, hinteger⟩, -⟩ := parseUrl_parts h hvalid
  have hcolon : ':' ∉ hostRead (restText text) := hhost ▸ (parseUrl_hostChars h).noColon
  have hcolon' : ':' ∉ c.givenName := not_mem_upTo ':' _
  rw [hostLine_eq hhost (port_eq_of_target hscheme hport hinteger), Client.givenHost]
  have hparts : NamesHost c text ↔ hostRead (restText text) = c.givenName ∧ _ :=
    ⟨fun h => ⟨h.name, h.port⟩, fun h => ⟨h.1, h.2⟩⟩
  rw [hparts]
  have hdefault := defaultPort_cases c.scheme
  generalize portNumber (schemeText text) (portRead (restText text)) = number
  dsimp only
  -- each of the two lines has a port or has none
  by_cases hlist : number = 80 ∨ number = 443
  · rw [if_pos hlist]
    by_cases hown : c.givenPort = defaultPort c.scheme
    · rw [if_pos hown]
      exact ⟨fun heq => ⟨heq, Or.inl ⟨hlist, hown⟩⟩, fun heq => heq.1⟩
    · rw [if_neg hown]
      refine iff_of_false (host_eq_iff hcolon hcolon' [] _).2.1 ?_
      rintro ⟨-, ⟨-, hsame⟩ | ⟨hother, -⟩⟩
      · exact hown hsame
      · omega
  · rw [if_neg hlist]
    by_cases hown : c.givenPort = defaultPort c.scheme
    · rw [if_pos hown]
      refine iff_of_false (host_eq_iff hcolon hcolon' _ []).2.2 ?_
      rintro ⟨-, ⟨hmem, -⟩ | ⟨-, hsame⟩⟩
      · exact hlist hmem
      · omega
    · rw [if_neg hown, (host_eq_iff hcolon hcolon' _ _).1, decimal_eq_toText_iff]
      refine and_congr_right fun _ => ⟨fun heq => Or.inr ⟨not_or.1 hlist, heq.symm⟩, ?_⟩
      rintro (⟨hmem, -⟩ | ⟨-, heq⟩)
      · exact absurd hmem hlist
      · exact heq.symm

/-! ## The fields -/

/-- The fields that the caller gives: the headers, and the content type. -/
def callerPairs (headers : TypeHeaders) (contentType : Str) : List (Str × Str) :=
  headers.items ++ if contentType = [] then [] else [(str "Content-Type", contentType)]

/-- The fields that the request of a call has: the host, those of the caller, and those that the
client adds where the caller has not given them. -/
def givenPairs (host method : Str) (headers : TypeHeaders) (body contentType : Str) :
    List (Str × Str) :=
  (str "Host", host) :: (str "Accept", str "*/*") ::
    (callerPairs headers contentType ++
      ((if headers.items.any (hasName (str "connection")) then []
        else [(str "Connection", str "Keep-Alive")]) ++
        (if method = str "POST" then [(str "Content-Length", decimal body.length)] else [])))

/-- The names of the caller's headers do not stand for fields that the client writes. -/
structure NamesApart (headers : TypeHeaders) (contentType : Str) : Prop where
  host : ∀ item ∈ headers.items, hasName (str "host") item = false
  accept : ∀ item ∈ headers.items, hasName (str "accept") item = false
  contentType : contentType ≠ [] →
    ∀ item ∈ headers.items, hasName (str "content-type") item = false

/-- A `Connection` header of the caller is written so. -/
def ConnectionExact (headers : TypeHeaders) : Prop :=
  ∀ item ∈ headers.items, hasName (str "connection") item = true → item.1 = str "Connection"

/-- The caller gives no transfer coding, and no length other than the one of an empty body. -/
structure FramingApart (method : Str) (headers : TypeHeaders) : Prop where
  coding : ∀ item ∈ headers.items, hasName (str "transfer-encoding") item = false
  length : ∀ item ∈ headers.items, hasName (str "content-length") item = true →
    method = str "GET" ∧ item.2 ≠ [] ∧ item.2.all Char.isDigit = true ∧ ofDecimal item.2 = 0

theorem headerLines_eq (headers : TypeHeaders) (contentType : Str) :
    headerLines headers contentType = (callerPairs headers contentType).map pairText := by
  simp only [headerLines, callerPairs]
  rw [List.map_append]
  by_cases h : contentType = []
  · rw [if_pos h, h]
    rfl
  · rw [if_neg h, if_neg (by simpa using h)]
    rfl

/-- The line of a field begins with `Connection:` where its name is so. -/
theorem isPrefixOf_pairText {pair : Str × Str} (hcolon : ':' ∉ pair.1) :
    (str "Connection:").isPrefixOf (pairText pair) = true ↔ pair.1 = str "Connection" := by
  obtain ⟨name, value⟩ := pair
  rw [List.isPrefixOf_iff_prefix]
  constructor
  · rintro ⟨tail, htail⟩
    have hupTo := congrArg (upTo ':') htail
    have hleft : upTo ':' (str "Connection:" ++ tail) = str "Connection" := rfl
    have hright : upTo ':' (pairText (name, value)) = name := upTo_split hcolon _
    rw [hleft, hright] at hupTo
    exact hupTo.symm
  · intro h
    have hname : name = str "Connection" := h
    exact ⟨' ' :: value, by rw [hname]; rfl⟩

theorem hasConnectionHeader_iff {pairs : List (Str × Str)}
    (hcolon : ∀ pair ∈ pairs, ':' ∉ pair.1) :
    hasConnectionHeader (pairs.map pairText) = true ↔
      ∃ pair ∈ pairs, pair.1 = str "Connection" := by
  simp only [hasConnectionHeader]
  rw [List.any_map, List.any_eq_true]
  constructor
  · rintro ⟨pair, hmem, hprefix⟩
    exact ⟨pair, hmem, (isPrefixOf_pairText (hcolon pair hmem)).1 hprefix⟩
  · rintro ⟨pair, hmem, hname⟩
    exact ⟨pair, hmem, (isPrefixOf_pairText (hcolon pair hmem)).2 hname⟩

/-- The client leaves its `Connection` field out exactly for the callers that give one, where a name
of the caller is exact. -/
theorem hasConnectionHeader_caller_iff {headers : TypeHeaders} (contentType : Str)
    (hcolon : ∀ item ∈ headers.items, ':' ∉ item.1) :
    hasConnectionHeader (headerLines headers contentType) =
      headers.items.any (hasName (str "connection")) ↔ ConnectionExact headers := by
  have hcaller : ∀ pair ∈ callerPairs headers contentType, ':' ∉ pair.1 := by
    intro pair hmem
    rcases List.mem_append.1 hmem with hmem | hmem
    · exact hcolon pair hmem
    · split_ifs at hmem
      · cases hmem
      · rw [List.mem_singleton.1 hmem]
        show ':' ∉ str "Content-Type"
        decide
  have hhas : hasConnectionHeader (headerLines headers contentType) = true ↔
      ∃ item ∈ headers.items, item.1 = str "Connection" := by
    rw [headerLines_eq, hasConnectionHeader_iff hcaller]
    constructor
    · rintro ⟨pair, hmem, hname⟩
      rcases List.mem_append.1 hmem with hmem | hmem
      · exact ⟨pair, hmem, hname⟩
      · split_ifs at hmem
        · cases hmem
        · rw [List.mem_singleton.1 hmem] at hname
          exact absurd (show str "Content-Type" = str "Connection" from hname) (by decide)
    · rintro ⟨item, hmem, hname⟩
      exact ⟨item, List.mem_append_left _ hmem, hname⟩
  have hexact : ∀ item : Str × Str, item.1 = str "Connection" →
      hasName (str "connection") item = true := by
    intro item hname
    simp only [hasName]
    rw [hname]
    decide
  rw [Bool.eq_iff_iff, hhas, List.any_eq_true]
  constructor
  · rintro h item hmem hname
    -- the header that the client found is the one with this name: the keys are distinct
    obtain ⟨other, hother, heq⟩ := h.2 ⟨item, hmem, hname⟩
    have hkey : lower item.1 = lower other.1 := by
      have hitem := of_decide_eq_true hname
      have hkeyOther := of_decide_eq_true (hexact other heq)
      rw [hitem, hkeyOther]
    rw [List.inj_on_of_nodup_map headers.distinct hmem hother hkey]
    exact heq
  · intro h
    constructor
    · rintro ⟨item, hmem, hname⟩
      exact ⟨item, hmem, hexact item hname⟩
    · rintro ⟨item, hmem, hname⟩
      exact ⟨item, hmem, h item hmem hname⟩

/-- Names and others that differ among themselves are all different where none is among both. -/
theorem nodup_append_iff {α : Type} {keys added : List α} (hkeys : keys.Nodup)
    (hadded : added.Nodup) : (keys ++ added).Nodup ↔ ∀ key ∈ added, key ∉ keys := by
  rw [List.nodup_append]
  constructor
  · rintro ⟨-, -, h⟩ key hmem hkey
    exact h key hkey key hmem rfl
  · intro h
    refine ⟨hkeys, hadded, ?_⟩
    rintro a ha b hb rfl
    exact h a hb ha

/-- The names of a request: two in front, the caller's, and three that may be left out. -/
theorem names_nodup_iff {α : Type} {keys : List α} {host accept type connection length : α}
    {P Q R : Prop} [Decidable P] [Decidable Q] [Decidable R]
    (hdistinct : [host, accept, type, connection, length].Nodup) (hkeys : keys.Nodup)
    (hconnection : ¬ Q → connection ∉ keys) :
    (host :: accept :: (keys ++ (if P then [] else [type]) ++
        ((if Q then [] else [connection]) ++ (if R then [length] else [])))).Nodup ↔
      (host ∉ keys ∧ accept ∉ keys ∧ (¬ P → type ∉ keys)) ∧ (R → length ∉ keys) := by
  have hadded : (host :: accept :: ((if P then [] else [type]) ++
      ((if Q then [] else [connection]) ++ (if R then [length] else [])))).Nodup := by
    refine hdistinct.sublist ?_
    split_ifs
    all_goals simp
  rw [List.append_assoc]
  -- the order does not matter: the caller's names in front, the client's behind
  refine ((List.perm_append_comm_assoc [host, accept] keys _).nodup_iff.trans
    (nodup_append_iff hkeys hadded)).trans ?_
  split_ifs
  all_goals simp_all [and_assoc]

/-- The fields of a call have different names exactly where the caller's are none of the client's.
-/
theorem givenPairs_nodup_iff (host method : Str) (headers : TypeHeaders) (body contentType : Str) :
    ((givenPairs host method headers body contentType).map
        fun pair => lower pair.1).Nodup ↔
      NamesApart headers contentType ∧ (method = str "POST" →
        ∀ item ∈ headers.items, hasName (str "content-length") item = false) := by
  have hmem : ∀ key : Str, key ∉ headers.items.map (fun item => lower item.1) ↔
      ∀ item ∈ headers.items, hasName key item = false := by
    intro key
    simp only [List.mem_map, not_exists, not_and, hasName, decide_eq_false_iff_not]
  -- a `connection` field is added only where the caller has none
  have hconnection : ¬ headers.items.any (hasName (str "connection")) = true →
      str "connection" ∉ headers.items.map fun item => lower item.1 := by
    intro h
    rw [hmem]
    exact fun item hitem => Bool.eq_false_iff.2 fun hname =>
      h (List.any_eq_true.2 ⟨item, hitem, hname⟩)
  have hapart : NamesApart headers contentType ↔
      str "host" ∉ headers.items.map (fun item => lower item.1) ∧
      str "accept" ∉ headers.items.map (fun item => lower item.1) ∧
      (contentType ≠ [] →
        str "content-type" ∉ headers.items.map fun item => lower item.1) := by
    simp only [hmem]
    exact ⟨fun h => ⟨h.host, h.accept, h.contentType⟩, fun h => ⟨h.1, h.2.1, h.2.2⟩⟩
  have hnames := names_nodup_iff (P := contentType = []) (R := method = str "POST")
    (show [str "host", str "accept", str "content-type", str "connection",
      str "content-length"].Nodup by decide) headers.distinct hconnection
  rw [hapart, ← hmem, ← hnames]
  simp only [givenPairs, callerPairs]
  simp only [List.map_cons, List.map_append,
    apply_ite (List.map fun pair : Str × Str => lower pair.1), List.map_nil]
  rfl

/-! ## The framing -/

theorem givenPairs_coding (host method : Str) (headers : TypeHeaders) (body contentType : Str) :
    (givenPairs host method headers body contentType).any
        (hasName (str "transfer-encoding")) =
      headers.items.any (hasName (str "transfer-encoding")) := by
  have hname : ∀ value, hasName (str "transfer-encoding") (str "Host", value) = false ∧
      hasName (str "transfer-encoding") (str "Accept", value) = false ∧
      hasName (str "transfer-encoding") (str "Content-Type", value) = false ∧
      hasName (str "transfer-encoding") (str "Connection", value) = false ∧
      hasName (str "transfer-encoding") (str "Content-Length", value) = false :=
    fun _ => ⟨rfl, rfl, rfl, rfl, rfl⟩
  simp only [givenPairs, callerPairs]
  simp only [List.any_cons, List.any_append, hname, Bool.false_or]
  split_ifs
  all_goals simp only [List.any_cons, List.any_nil, hname, Bool.or_false]

theorem givenPairs_length (host method : Str) (headers : TypeHeaders) (body contentType : Str) :
    (givenPairs host method headers body contentType).filter
        (hasName (str "content-length")) =
      headers.items.filter (hasName (str "content-length")) ++
        if method = str "POST" then [(str "Content-Length", decimal body.length)] else [] := by
  have hname : ∀ value, hasName (str "content-length") (str "Host", value) = false ∧
      hasName (str "content-length") (str "Accept", value) = false ∧
      hasName (str "content-length") (str "Content-Type", value) = false ∧
      hasName (str "content-length") (str "Connection", value) = false ∧
      hasName (str "content-length") (str "Content-Length", value) = true :=
    fun _ => ⟨rfl, rfl, rfl, rfl, rfl⟩
  simp only [givenPairs, callerPairs]
  simp only [List.filter_cons, List.filter_append, hname, Bool.false_eq_true, if_false]
  split_ifs
  all_goals
    simp only [List.filter_cons, List.filter_nil, hname, Bool.false_eq_true, if_false, if_true,
      List.append_nil, List.nil_append]

/-- At most one header of the caller has a name. -/
theorem hasName_unique {headers : TypeHeaders} {key : Str} {item other : Str × Str}
    (hitem : item ∈ headers.items) (hother : other ∈ headers.items)
    (hname : hasName key item = true) (hname' : hasName key other = true) : item = other := by
  have hkey : lower item.1 = lower other.1 := by
    rw [of_decide_eq_true hname, of_decide_eq_true hname']
  exact List.inj_on_of_nodup_map headers.distinct hitem hother hkey

/-- The fields of a call frame its body exactly where the caller's do not frame it otherwise. -/
theorem bodyLength_givenPairs_iff {host method : Str}
    {headers : TypeHeaders} {body contentType : Str}
    (hmethod : method = str "GET" ∧ body = [] ∨ method = str "POST") :
    bodyLength (givenPairs host method headers body contentType) = some body.length ↔
      FramingApart method headers := by
  simp only [bodyLength]
  rw [givenPairs_coding, givenPairs_length]
  by_cases hcoding : headers.items.any (hasName (str "transfer-encoding")) = true
  · rw [if_pos hcoding]
    obtain ⟨item, hitem, hname⟩ := List.any_eq_true.1 hcoding
    constructor
    · intro h
      cases h
    · intro h
      rw [h.coding item hitem] at hname
      cases hname
  rw [if_neg hcoding]
  have hnoCoding : ∀ item ∈ headers.items,
      hasName (str "transfer-encoding") item = false := fun item hitem =>
    Bool.eq_false_iff.2 fun hname => hcoding (List.any_eq_true.2 ⟨item, hitem, hname⟩)
  have hmem : ∀ item, item ∈ headers.items.filter (hasName (str "content-length")) ↔
      item ∈ headers.items ∧ hasName (str "content-length") item = true :=
    fun item => List.mem_filter
  rcases hlengths : headers.items.filter (hasName (str "content-length"))
    with - | ⟨given, others⟩
  · rw [hlengths] at hmem
    have hnone : FramingApart method headers := by
      refine ⟨hnoCoding, ?_⟩
      intro item hitem hname
      exact absurd ((hmem item).2 ⟨hitem, hname⟩) List.not_mem_nil
    rcases hmethod with ⟨rfl, rfl⟩ | rfl
    · exact ⟨fun _ => hnone, fun _ => rfl⟩
    · refine ⟨fun _ => hnone, fun _ => ?_⟩
      have hdigits : (decimal body.length).all Char.isDigit = true :=
        List.all_eq_true.2 fun c hc => isDigit_of_mem_decimal hc
      have hsome : (decimal body.length).isEmpty = false := by
        simpa using decimal_ne_nil body.length
      simp only [List.nil_append, if_true, hdigits, hsome, Bool.not_false, Bool.and_self,
        ofDecimal_decimal]
  · rw [hlengths] at hmem
    obtain ⟨hgiven, hname⟩ := (hmem given).1 List.mem_cons_self
    -- a second header of that name would be the same key of the map
    have hothers : others = [] := by
      rcases others with - | ⟨second, rest⟩
      · rfl
      · obtain ⟨hsecond, hname'⟩ :=
          (hmem second).1 (List.mem_cons_of_mem _ List.mem_cons_self)
        have hnodup : (headers.items.filter (hasName (str "content-length"))).Nodup :=
          (List.Nodup.of_map _ headers.distinct).filter _
        rw [hlengths, hasName_unique hgiven hsecond hname hname'] at hnodup
        exact absurd List.mem_cons_self (List.nodup_cons.1 hnodup).1
    subst hothers
    rcases hmethod with ⟨rfl, rfl⟩ | rfl
    · have hget : ¬ str "GET" = str "POST" := by decide
      rw [if_neg hget, List.append_nil]
      simp only
      constructor
      · intro h
        split_ifs at h with hvalue
        · rw [Bool.and_eq_true, Bool.not_eq_true'] at hvalue
          refine ⟨hnoCoding, ?_⟩
          intro item hitem hitemName
          obtain rfl := hasName_unique hgiven hitem hname hitemName
          exact ⟨rfl, by simpa using hvalue.1, hvalue.2, by simpa using h⟩
      · intro h
        obtain ⟨-, hsome, hdigits, hzero⟩ := h.length given hgiven hname
        rw [if_pos (by simp [hsome, hdigits]), hzero]
        rfl
    · constructor
      · intro h
        cases h
      · intro h
        exact absurd (h.length given hgiven hname).1 (by decide)

/-! ## What is checked -/

/-- The characters of a name stand in field values. -/
theorem nameChars_fieldChar {name : Str} (hname : NameChars name) :
    ∀ c ∈ name, isFieldChar c = true ∧ isOws c = false := by
  intro c hc
  have hchar := hname c hc
  by_cases halnum : c.isAlphanum = true
  · exact isFieldChar_of_isAlphanum halnum
  · simp only [isUnreserved, isAlnum, halnum, Bool.or_eq_true, decide_eq_true_eq,
      Bool.false_eq_true, false_or] at hchar
    rcases hchar with (((rfl | rfl) | rfl) | rfl) | rfl
    all_goals decide

theorem toText_fieldChar (port : Int) :
    ∀ c ∈ toText port, isFieldChar c = true ∧ isOws c = false := by
  have hdecimal : ∀ n, ∀ c ∈ decimal n, isFieldChar c = true ∧ isOws c = false := by
    intro n c hc
    have hdigit := isDigit_of_mem_decimal hc
    exact isFieldChar_of_isAlphanum (by simp [Char.isAlphanum, hdigit])
  intro c hc
  cases port with
  | ofNat n => exact hdecimal n c hc
  | negSucc n =>
      rcases List.mem_cons.1 hc with rfl | hc
      · decide
      · exact hdecimal _ c hc

/-- A name is a field value, with and without a port behind it. -/
theorem isFieldValue_host {name : Str} (hname : NameChars name) (port : Int) :
    isFieldValue name = true ∧ isFieldValue (name ++ ':' :: toText port) = true := by
  refine ⟨isFieldValue_of_all (nameChars_fieldChar hname), isFieldValue_of_all ?_⟩
  intro c hc
  rcases List.mem_append.1 hc with hc | hc
  · exact nameChars_fieldChar hname c hc
  · rcases List.mem_cons.1 hc with rfl | hc
    · decide
    · exact toText_fieldChar port c hc

end Ssgx.Http
