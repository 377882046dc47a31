import Ssgx.Http.UrlReading
import Ssgx.Support.Digits

/-!
# The parts of a URL that is written from them

A URL `scheme://host[:port]path[?query][#fragment]` without user information, put together from
parts over their legal characters, and what `HttpUrl::parse` makes of it. The states of `parse_`
that the text goes through each collect one part (`UrlParser.run_collect`).

Only the query does not always come back: in its state a further `?` is taken for another beginning
of the query and left out (`returned_iff`).
-/

set_option autoImplicit false

namespace Ssgx.Http

open Ssgx.Support

/-! ## The parts -/

/-- The parts of a URL. -/
structure UrlParts where
  scheme : Str
  host : Str
  port : Option Nat
  path : Str
  query : Option Str
  fragment : Option Str

/-- The characters of a scheme. -/
def isSchemeChar (ch : Char) : Bool := isAlnum ch || ch = '+' || ch = '-' || ch = '.'

namespace UrlParts

/-- The parts consist of their legal characters. -/
structure Legal (p : UrlParts) : Prop where
  scheme : ∀ ch ∈ p.scheme, isSchemeChar ch = true
  host : ∀ ch ∈ p.host, isUnreserved ch = true
  hostNonempty : p.host ≠ []
  port : ∀ n, p.port = some n → 1 ≤ n ∧ n ≤ 65535
  pathSlash : ∃ rest, p.path = '/' :: rest
  pathMark : '?' ∉ p.path
  pathHash : '#' ∉ p.path
  queryHash : ∀ q, p.query = some q → '#' ∉ q

/-- A part behind a separator, where there is one. -/
def behindMark (mark : Char) : Option Str → Str
  | none => []
  | some text => mark :: text

/-- The text of the port. -/
def portText (p : UrlParts) : Option Str := p.port.map decimal

/-- The URL. -/
def render (p : UrlParts) : Str :=
  p.scheme ++ (str "://" ++ (p.host ++ (behindMark ':' p.portText ++
    (p.path ++ (behindMark '?' p.query ++ behindMark '#' p.fragment)))))

/-- **The intended result.** A URL with these parts is valid. -/
structure IsUrl (p : UrlParts) (u : HttpUrl) : Prop where
  valid : u.valid = true
  scheme : u.url.scheme = p.scheme
  host : u.url.hostname = p.host
  port : u.url.port = p.portText.getD []
  httpPort : ∀ n, p.port = some n → u.httpPort = n
  path : u.url.path = p.path
  query : u.url.query = p.query.getD []
  fragment : u.url.fragment = p.fragment.getD []

/-- `HttpUrl::parse` returns the parts. -/
def Returned (ndebug : Bool) (p : UrlParts) : Prop :=
  ∃ u, parseUrl ndebug p.render = some u ∧ p.IsUrl u

end UrlParts

/-! ## Collecting a part -/

/-- The variables of `parse_` in a state, with no user information. -/
def UrlParser.reading (state : UrlState) (url : Url) (name digits : Str) : UrlParser where
  state := state
  valid := true
  aborted := false
  url := url
  usernameOrHostname := name
  portOrPassword := digits

theorem UrlParser.going_reading (state : UrlState) (url : Url) (name digits : Str) :
    (UrlParser.reading state url name digits).Going := ⟨rfl, rfl⟩

/-- **Collecting.** Where each character of a text is added to what was collected, so is the
text. -/
theorem UrlParser.run_collect (collected : Str → UrlParser) {text : Str}
    (hgoing : ∀ front, (collected front).Going)
    (hstep : ∀ front, ∀ ch ∈ text, (collected front).step ch = collected (front ++ [ch]))
    (front rest : Str) :
    (collected front).run (text ++ rest) = (collected (front ++ text)).run rest := by
  induction text generalizing front with
  | nil => rw [List.nil_append, List.append_nil]
  | cons ch text ih =>
      have hrest := ih (fun f c hc => hstep f c (List.mem_cons_of_mem _ hc)) (front ++ [ch])
      rw [List.cons_append, UrlParser.run_cons (hgoing front),
        hstep front ch List.mem_cons_self, hrest, List.append_assoc]
      rfl

/-- A `Url` without user information. -/
def urlWith (scheme host port path query fragment : Str) (integerPort : Nat) : Url :=
  ⟨scheme, [], [], host, port, path, query, fragment, integerPort⟩

theorem run_schemeChars {scheme : Str} (h : ∀ ch ∈ scheme, isSchemeChar ch = true) (rest : Str) :
    UrlParser.start.run (scheme ++ rest) =
      (UrlParser.reading .scheme (urlWith scheme [] [] ['/'] [] [] 0) [] []).run rest :=
  UrlParser.run_collect
    (fun front => .reading .scheme (urlWith front [] [] ['/'] [] [] 0) [] [])
    (fun _ => UrlParser.going_reading _ _ _ _) (fun _ ch hch => if_pos (h ch hch)) [] rest

/-- The characters behind the scheme. -/
theorem run_slashes (scheme rest : Str) :
    (UrlParser.reading .scheme (urlWith scheme [] [] ['/'] [] [] 0) [] []).run
        (str "://" ++ rest) =
      (UrlParser.reading .usernameOrHostname (urlWith scheme [] [] ['/'] [] [] 0) [] []).run
        rest := rfl

theorem run_hostChars (url : Url) {host : Str} (h : ∀ ch ∈ host, isUnreserved ch = true)
    (rest : Str) :
    (UrlParser.reading .usernameOrHostname url [] []).run (host ++ rest) =
      (UrlParser.reading .usernameOrHostname url host []).run rest := by
  refine UrlParser.run_collect (fun front => .reading .usernameOrHostname url front [])
    (fun _ => UrlParser.going_reading _ _ _ _) (fun front ch hch => ?_) [] rest
  have hname : (isUnreserved ch || ch = '%') = true := by
    rw [h ch hch, Bool.true_or]
  simp only [UrlParser.step, UrlParser.reading, if_pos hname]

theorem run_portDigits (url : Url) (host : Str) {digits : Str} (h : AllDigits digits)
    (rest : Str) :
    (UrlParser.reading .portOrPassword url host []).run (digits ++ rest) =
      (UrlParser.reading .portOrPassword url host digits).run rest := by
  refine UrlParser.run_collect (fun front => .reading .portOrPassword url host front)
    (fun _ => UrlParser.going_reading _ _ _ _) (fun front ch hch => ?_) [] rest
  simp only [UrlParser.step, UrlParser.reading, if_pos (h ch hch)]

theorem run_pathChars {scheme host port query fragment : Str} {integerPort : Nat} (front : Str)
    {path : Str} (hmark : '?' ∉ path) (hhash : '#' ∉ path) (rest : Str) :
    (UrlParser.reading .path (urlWith scheme host port front query fragment integerPort) []
        []).run (path ++ rest) =
      (UrlParser.reading .path
        (urlWith scheme host port (front ++ path) query fragment integerPort) [] []).run rest := by
  refine UrlParser.run_collect
    (fun front => .reading .path (urlWith scheme host port front query fragment integerPort) [] [])
    (fun _ => UrlParser.going_reading _ _ _ _) (fun front ch hch => ?_) front rest
  have hnotHash : ch ≠ '#' := fun heq => hhash (heq ▸ hch)
  have hnotMark : ch ≠ '?' := fun heq => hmark (heq ▸ hch)
  simp only [UrlParser.step, UrlParser.reading, if_neg hnotHash, if_neg hnotMark]
  rfl

/-- **The query is collected without its `?`.** -/
theorem run_queryChars {scheme host port path fragment : Str} {integerPort : Nat} {query : Str}
    (hhash : '#' ∉ query) (rest : Str) :
    (UrlParser.reading .query (urlWith scheme host port path [] fragment integerPort) []
        []).run (query ++ rest) =
      (UrlParser.reading .query (urlWith scheme host port path (query.filter (· ≠ '?')) fragment
        integerPort) [] []).run rest := by
  refine UrlParser.run_collect
    (fun front => .reading .query
      (urlWith scheme host port path (front.filter (· ≠ '?')) fragment integerPort) [] [])
    (fun _ => UrlParser.going_reading _ _ _ _) (fun front ch hch => ?_) [] rest
  have hnotHash : ch ≠ '#' := fun heq => hhash (heq ▸ hch)
  simp only [UrlParser.step, UrlParser.reading, if_neg hnotHash, List.filter_append]
  by_cases hmark : ch = '?'
  · rw [if_pos hmark, List.filter_cons_of_neg (by simp [hmark]), List.filter_nil, List.append_nil]
  · rw [if_neg hmark, List.filter_cons_of_pos (by simp [hmark]), List.filter_nil]
    rfl

theorem run_fragmentChars {scheme host port path query : Str} {integerPort : Nat}
    (fragment : Str) :
    (UrlParser.reading .fragment (urlWith scheme host port path query [] integerPort) []
        []).run fragment =
      UrlParser.reading .fragment (urlWith scheme host port path query fragment integerPort) []
        [] := by
  have hstep : ∀ front, ∀ ch ∈ fragment,
      (UrlParser.reading .fragment (urlWith scheme host port path query front integerPort) []
        []).step ch = .reading .fragment
          (urlWith scheme host port path query (front ++ [ch]) integerPort) [] [] :=
    fun _ _ _ => rfl
  have hrun := UrlParser.run_collect
    (fun front => .reading .fragment (urlWith scheme host port path query front integerPort) [] [])
    (fun _ => UrlParser.going_reading _ _ _ _) hstep [] []
  rwa [List.append_nil, List.nil_append] at hrun

/-! ## The whole URL -/

theorem atoiPort_decimal {n : Nat} (h : n ≤ 65535) : atoiPort (decimal n) = n := by
  have hmin : min n (2 ^ 63 - 1) = n := Nat.min_eq_left (by omega)
  rw [atoiPort, ofDecimal_decimal, hmin]
  exact Nat.mod_eq_of_lt (by omega)

/-- The authority, up to the `/` that the path begins with. -/
theorem run_authority {p : UrlParts} (h : p.Legal) (rest : Str) :
    (UrlParser.reading .usernameOrHostname (urlWith p.scheme [] [] ['/'] [] [] 0) [] []).run
        (p.host ++ (UrlParts.behindMark ':' p.portText ++ '/' :: rest)) =
      (UrlParser.reading .path (urlWith p.scheme p.host (p.portText.getD []) ['/'] [] []
        (p.port.getD 0)) [] []).run rest := by
  rw [run_hostChars _ h.host]
  cases hport : p.port with
  | none =>
      have htext : p.portText = none := by rw [UrlParts.portText, hport]; rfl
      rw [htext]
      exact UrlParser.run_cons (UrlParser.going_reading _ _ _ _) '/' rest
  | some n =>
      have htext : p.portText = some (decimal n) := by rw [UrlParts.portText, hport]; rfl
      have hrange := h.port n hport
      rw [htext]
      show UrlParser.run _ (':' :: (decimal n ++ '/' :: rest)) = _
      rw [UrlParser.run_cons (UrlParser.going_reading _ _ _ _)]
      show (UrlParser.reading .portOrPassword (urlWith p.scheme [] [] ['/'] [] [] 0) p.host
        []).run _ = _
      rw [run_portDigits _ _ (allDigits_decimal n),
        UrlParser.run_cons (UrlParser.going_reading _ _ _ _)]
      have hslash : (UrlParser.reading .portOrPassword (urlWith p.scheme [] [] ['/'] [] [] 0)
          p.host (decimal n)).step '/' = UrlParser.reading .path
            (urlWith p.scheme p.host (decimal n) ['/'] [] [] (atoiPort (decimal n))) [] [] := rfl
      rw [hslash, atoiPort_decimal hrange.2]
      rfl

/-- What is behind the path. -/
theorem run_behindPath (scheme host port path : Str) (integerPort : Nat) {query : Option Str}
    (hquery : ∀ q, query = some q → '#' ∉ q) (fragment : Option Str) :
    ∃ state, (UrlParser.reading .path (urlWith scheme host port path [] [] integerPort) []
        []).run (UrlParts.behindMark '?' query ++ UrlParts.behindMark '#' fragment) =
      UrlParser.reading state (urlWith scheme host port path ((query.getD []).filter (· ≠ '?'))
        (fragment.getD []) integerPort) [] [] := by
  -- a fragment is read alike from the path and from the query
  have hfragment : ∀ (source : UrlState) (text : Str), source = .path ∨ source = .query →
      ∃ state, (UrlParser.reading source (urlWith scheme host port path text [] integerPort) []
          []).run (UrlParts.behindMark '#' fragment) =
        UrlParser.reading state (urlWith scheme host port path text (fragment.getD [])
          integerPort) [] [] := by
    intro source text hsource
    cases fragment with
    | none => exact ⟨source, rfl⟩
    | some f =>
        refine ⟨.fragment, ?_⟩
        show UrlParser.run _ ('#' :: f) = _
        rw [UrlParser.run_cons (UrlParser.going_reading _ _ _ _)]
        rcases hsource with rfl | rfl
        · exact run_fragmentChars f
        · exact run_fragmentChars f
  cases query with
  | none => exact hfragment .path [] (.inl rfl)
  | some q =>
      obtain ⟨state, hrun⟩ := hfragment .query (q.filter (· ≠ '?')) (.inr rfl)
      refine ⟨state, ?_⟩
      show UrlParser.run _ ('?' :: (q ++ _)) = _
      rw [UrlParser.run_cons (UrlParser.going_reading _ _ _ _)]
      show (UrlParser.reading .query (urlWith scheme host port path [] [] integerPort) []
        []).run _ = _
      rw [run_queryChars (hquery q rfl), hrun]
      rfl

/-- **What `HttpUrl::parse` makes of a URL from its parts.** -/
theorem parseUrl_render (ndebug : Bool) {p : UrlParts} (h : p.Legal) :
    parseUrl ndebug p.render = some ⟨true, urlWith p.scheme p.host (p.portText.getD []) p.path
      ((p.query.getD []).filter (· ≠ '?')) (p.fragment.getD []) (p.port.getD 0)⟩ := by
  obtain ⟨rest, hpath⟩ := h.pathSlash
  have hmark : '?' ∉ rest := fun hmem => h.pathMark (hpath ▸ List.mem_cons_of_mem _ hmem)
  have hhash : '#' ∉ rest := fun hmem => h.pathHash (hpath ▸ List.mem_cons_of_mem _ hmem)
  obtain ⟨state, hbehind⟩ := run_behindPath p.scheme p.host (p.portText.getD []) p.path
    (p.port.getD 0) h.queryHash p.fragment
  have hrun : UrlParser.start.run p.render = UrlParser.reading state
      (urlWith p.scheme p.host (p.portText.getD []) p.path
        ((p.query.getD []).filter (· ≠ '?')) (p.fragment.getD []) (p.port.getD 0)) [] [] := by
    rw [UrlParts.render, run_schemeChars h.scheme, run_slashes]
    rw [hpath, List.cons_append, run_authority h, run_pathChars _ hmark hhash]
    rw [hpath] at hbehind
    exact hbehind
  simp only [parseUrl, hrun, UrlParser.reading, List.isEmpty_nil, Bool.false_eq_true, if_false,
    Bool.not_true, Bool.and_false, if_true]

/-- **A URL from its parts gives them back exactly when its query has no `?`.** -/
theorem returned_iff (ndebug : Bool) {p : UrlParts} (h : p.Legal) :
    p.Returned ndebug ↔ ∀ q, p.query = some q → '?' ∉ q := by
  have hparse := parseUrl_render ndebug h
  -- the parser drops every `?`, so the query comes back where there is none
  have hfilter : (p.query.getD []).filter (· ≠ '?') = p.query.getD [] ↔
      ∀ q, p.query = some q → '?' ∉ q := by
    rw [List.filter_eq_self]
    cases p.query with
    | none => exact iff_of_true (fun _ hmem => absurd hmem List.not_mem_nil) nofun
    | some q =>
        constructor
        · rintro hall _ ⟨⟩ hmem
          exact absurd (hall '?' hmem) (by decide)
        · intro hnot ch hmem
          have hne : ch ≠ '?' := fun heq => hnot q rfl (heq ▸ hmem)
          exact decide_eq_true hne
  rw [← hfilter]
  constructor
  · rintro ⟨u, hu, hparts⟩
    rw [hparse] at hu
    cases hu
    exact hparts.query
  · intro hquery
    refine ⟨_, hparse, ⟨rfl, rfl, rfl, rfl, ?_, rfl, hquery, rfl⟩⟩
    intro n hn
    have hne : (decimal n).isEmpty = false := by
      rw [List.isEmpty_eq_false_iff]
      exact decimal_ne_nil n
    simp only [HttpUrl.httpPort, urlWith, UrlParts.portText, hn, Option.map_some,
      Option.getD_some, hne, Bool.false_eq_true, if_false]

/-- `https://a/b?c?d` loses the second mark of its query. -/
theorem not_returned_mark :
    ¬ ∀ (ndebug : Bool) (p : UrlParts), p.Legal → p.Returned ndebug := by
  intro h
  have hlegal : UrlParts.Legal ⟨str "https", str "a", none, str "/b", some (str "c?d"), none⟩ :=
    { scheme := List.all_eq_true.1 (by decide)
      host := List.all_eq_true.1 (by decide)
      hostNonempty := by decide
      port := nofun
      pathSlash := ⟨str "b", rfl⟩
      pathMark := by decide
      pathHash := by decide
      queryHash := by
        rintro q ⟨⟩
        decide }
  obtain ⟨u, hu, hparts⟩ := h true _ hlegal
  have hquery : u.url.query = str "cd" := by
    have hresult := Option.some.inj hu
    rw [← hresult]
    rfl
  exact absurd (hquery.symm.trans hparts.query) (by decide)

/-- A URL with a port and with all of its optional parts. -/
theorem returned_iff_full :
    UrlParts.Returned true ⟨str "http", str "h.x", some 8080, str "/a:@b", some (str "k=/:@"),
      some (str "f")⟩ ↔ ∀ q, some (str "k=/:@") = some q → '?' ∉ q :=
  returned_iff true
    { scheme := List.all_eq_true.1 (by decide)
      host := List.all_eq_true.1 (by decide)
      hostNonempty := by decide
      port := by
        rintro n ⟨⟩
        decide
      pathSlash := ⟨str "a:@b", rfl⟩
      pathMark := by decide
      pathHash := by decide
      queryHash := by
        rintro q ⟨⟩
        decide }

end Ssgx.Http
