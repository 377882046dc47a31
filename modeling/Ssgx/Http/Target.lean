import Ssgx.Http.Client
import Ssgx.Http.UrlReading

/-!
# Where a request goes

The client is made for a scheme, a name and a port. `InitUrl` writes them in front of the path, and
the parser reads the host from the result: it is the client's host only if the text up to the first
`/` still reads so (`RightTarget`). A path that begins with `/` leaves it alone
(`rightTarget_of_slash`), any other path becomes a part of it.
-/

set_option autoImplicit false

namespace Ssgx.Http

open Ssgx.Support

variable {S : Type}

/-! ## The URL of a client -/

/-- A client for the host `scheme://name`. -/
def Client.forHost (scheme name : Str) (port : Int) (serverCa : Str) : Client :=
  ⟨scheme ++ str "://" ++ name, port, serverCa⟩

/-- The port as `InitUrl` writes it. -/
def portText (port : Int) : Str := if port = -1 then [] else ':' :: toText port

/-- What `InitUrl` writes behind `scheme://`. -/
def targetText (name : Str) (port : Int) (path : Str) (params : List Str) : Str :=
  lower name ++ (portText port ++ pathWithParams path params)

/-- What `InitUrl` writes: the host in lower case, the port, and the path with the parameters. -/
theorem initUrl_eq (host : Str) (port : Int) (serverCa path : Str) (params : List Str) :
    (HttpClient.make host port serverCa).initUrl path params =
      lower host ++ (portText port ++ pathWithParams path params) := by
  by_cases hport : port = -1
  · simp [HttpClient.initUrl, HttpClient.make, portText, hport]
  · simp [HttpClient.initUrl, HttpClient.make, portText, hport]

theorem initUrl_forHost {scheme : Str} (hscheme : IsHttpScheme scheme) (name : Str) (port : Int)
    (serverCa path : Str) (params : List Str) :
    (HttpClient.make (scheme ++ str "://" ++ name) port serverCa).initUrl path params =
      scheme ++ str "://" ++ targetText name port path params := by
  have hlower : lower (scheme ++ str "://") = scheme ++ str "://" := by
    rcases hscheme with rfl | rfl
    · rfl
    · rfl
  rw [initUrl_eq, lower_append, hlower, targetText, List.append_assoc _ (lower name)]

/-! ## The target -/

/-- The port of a scheme. -/
def defaultPort (scheme : Str) : Nat := if scheme = str "https" then 443 else 80

/-- The port that the client is made for: `-1` stands for the one of the scheme. -/
def givenPort (scheme : Str) (port : Int) : Int := if port = -1 then defaultPort scheme else port

/-- The number of a port that is read in a URL. -/
def portNumber (scheme port : Str) : Nat :=
  if port = [] then defaultPort scheme else atoiPort port

/-- The text behind `scheme://` reads as this name and the port the client is made for. -/
def RightTarget (scheme name : Str) (port : Int) (rest : Str) : Prop :=
  hostRead rest = lower name ∧ portNumber scheme (portRead rest) = givenPort scheme port

/-- A natural number is written as a number of the same value. -/
theorem decimal_eq_toText_iff (n : Nat) (z : Int) : decimal n = toText z ↔ (n : Int) = z := by
  cases z with
  | ofNat m =>
      constructor
      · intro h
        rw [decimal_injective (show decimal n = decimal m from h)]
        rfl
      · intro h
        rw [Int.ofNat.inj h]
        rfl
  | negSucc m =>
      constructor
      · intro h
        -- a negative number is written with a sign, which no decimal has
        have hminus : '-' ∈ decimal n := h ▸ List.mem_cons_self
        exact absurd (isDigit_of_mem_decimal hminus) (by decide)
      · intro h
        cases h

/-- The text of a URL's port. -/
theorem port_eq_of_target {url : HttpUrl} {scheme port : Str} (hscheme : url.url.scheme = scheme)
    (hport : url.url.port = port) (hinteger : url.url.integerPort = atoiPort port) :
    url.port = decimal (portNumber scheme port) := by
  simp only [HttpUrl.port, HttpUrl.httpPort, portNumber, defaultPort]
  rw [hscheme, hport, hinteger]
  simp only [List.isEmpty_iff]

/-- **Where a request goes.** A call that reaches the network connects to the client's own scheme,
name and port, and to nothing else, exactly where the URL's text reads so. -/
theorem connect_target_iff {scheme name : Str} {port : Int} {serverCa : Str} {ndebug : Bool}
    {io : ExchangeIo} {parser : ResponseParser S} {method path : Str} {headers : TypeHeaders}
    {params : List (Str × Str)} {body contentType : Str} (hscheme : IsHttpScheme scheme)
    (hreach : ((Client.forHost scheme name port serverCa).sendRequest ndebug io parser method path
      headers params body contentType).events ≠ []) :
    (∀ isHttps hostname portname, NetEvent.connect isHttps hostname portname ∈
        ((Client.forHost scheme name port serverCa).sendRequest ndebug io parser method path headers
          params body contentType).events →
      isHttps = decide (scheme = str "https") ∧ hostname = lower name ∧
        portname = toText (givenPort scheme port)) ↔
    RightTarget scheme name port (targetText name port path (sentParams method params)) := by
  obtain ⟨-, url, isHttps, request, hready, hevents⟩ := Client.sendRequest_reaches hreach
  obtain ⟨hparse, hvalid, hhttps, -⟩ := Client.prepared_ready hready
  simp only [Client.forHost] at hparse
  rw [initUrl_forHost hscheme] at hparse
  obtain ⟨hsame, hhost, hport, hinteger, -⟩ := parseUrl_target hscheme hparse hvalid
  have hportText := port_eq_of_target hsame hport hinteger
  rw [hsame] at hhttps
  rw [hevents]
  simp only [doRequest_connects]
  simp only [RightTarget]
  rw [← hhost, ← decimal_eq_toText_iff, ← hportText]
  constructor
  · intro h
    exact (h isHttps url.url.hostname url.port ⟨rfl, rfl, rfl⟩).2
  · rintro ⟨hname, hnumber⟩ toHttps hostname portname ⟨rfl, rfl, rfl⟩
    exact ⟨hhttps, hname, hnumber⟩

/-- A `GET` of `/a` from the client for `https://Good.com`, port 8443, goes there. -/
theorem connect_target_path :
    ((Client.forHost (str "https") (str "Good.com") 8443 []).sendRequest true
        (.succeeding [1000] []) (.ofLength 3) (str "GET") (str "/a") ⟨[], by decide⟩ [] []
        []).events ≠ [] ∧
      ∀ isHttps hostname portname, NetEvent.connect isHttps hostname portname ∈
          ((Client.forHost (str "https") (str "Good.com") 8443 []).sendRequest true
            (.succeeding [1000] []) (.ofLength 3) (str "GET") (str "/a") ⟨[], by decide⟩ [] []
            []).events →
        isHttps = decide (str "https" = str "https") ∧ hostname = lower (str "Good.com") ∧
          portname = toText (givenPort (str "https") 8443) :=
  ⟨by decide, (connect_target_iff (Or.inr rfl) (by decide)).2 ⟨rfl, rfl⟩⟩

/-- A `GET` of `@evil.com/` from the client for `http://good.com` connects to `evil.com`. -/
theorem path_redirects_connection :
    NetEvent.connect false (str "evil.com") (str "80") ∈
        ((Client.forHost (str "http") (str "good.com") (-1) []).sendRequest true
          (.succeeding [1000] []) (.ofLength 3) (str "GET") (str "@evil.com/") ⟨[], by decide⟩ [] []
          []).events ∧
      str "evil.com" ≠ lower (str "good.com") := by
  decide

/-! ## Paths that begin with a slash -/

theorem isUnreserved_toLower {ch : Char} (h : isUnreserved ch = true) :
    isUnreserved ch.toLower = true := by
  by_cases halnum : ch.isAlphanum = true
  · simp only [isUnreserved, isAlnum, isAlphanum_toLower halnum, Bool.true_or]
  · simp only [isUnreserved, isAlnum, halnum, Bool.or_eq_true, decide_eq_true_eq,
      Bool.false_eq_true, false_or] at h
    rcases h with ((rfl | rfl) | rfl) | rfl
    all_goals decide

theorem nameChars_lower {name : Str} (h : ∀ ch ∈ name, isUnreserved ch = true) :
    NameChars (lower name) := by
  intro ch hmem
  obtain ⟨c, hc, rfl⟩ := List.mem_map.1 hmem
  rw [isUnreserved_toLower (h c hc), Bool.true_or]

/-- The path with the parameters begins as the path does. -/
theorem pathWithParams_of_slash {path : Str} (hpath : path.head? = some '/') (params : List Str) :
    ∃ rest, pathWithParams path params = '/' :: rest := by
  obtain ⟨tail, rfl⟩ : ∃ tail, path = '/' :: tail := by
    cases path with
    | nil => cases hpath
    | cons first tail =>
        cases hpath
        exact ⟨tail, rfl⟩
  unfold pathWithParams
  simp only
  split_ifs
  · exact ⟨tail, rfl⟩
  · exact ⟨_, rfl⟩

/-- A character that is neither a digit nor a sign does not occur in a number. -/
theorem not_mem_toText {c : Char} (hc : c.isDigit = false) (hsign : c ≠ '-') (z : Int) :
    c ∉ toText z := by
  have hdecimal : ∀ n, c ∉ decimal n := by
    intro n hmem
    rw [isDigit_of_mem_decimal hmem] at hc
    cases hc
  cases z with
  | ofNat n => exact hdecimal n
  | negSucc n =>
      intro hmem
      rcases List.mem_cons.1 hmem with heq | hmem
      · exact hsign heq
      · exact hdecimal _ hmem

/-- **A path that begins with `/`** leaves the target alone: the host and the port are read as
`InitUrl` has written them, and the path as it was given. -/
theorem target_of_slash {name : Str} {path : Str} (hname : ∀ ch ∈ name, isUnreserved ch = true)
    (hpath : path.head? = some '/') (port : Int) (params : List Str) :
    '/' ∈ targetText name port path params ∧
      hostRead (targetText name port path params) = lower name ∧
      portRead (targetText name port path params) = (if port = -1 then [] else toText port) ∧
      pathAndQuery (targetText name port path params) =
        pathAndQuery (pathWithParams path params) := by
  obtain ⟨rest, hrest⟩ := pathWithParams_of_slash hpath params
  have hchars := nameChars_lower hname
  -- the authority is what stands in front of the first `/` of the path
  have hauthority : ∃ authority, lower name ++ portText port = authority ∧ '/' ∉ authority ∧
      hostOf authority = lower name ∧
      portOf authority = if port = -1 then [] else toText port := by
    have hslash : '/' ∉ lower name := hchars.not_mem (by decide)
    by_cases hnone : port = -1
    · refine ⟨lower name, ?_, hslash, ?_⟩
      · rw [portText, if_pos hnone, List.append_nil]
      · rw [if_pos hnone]
        exact hostOf_name hchars
    · rw [if_neg hnone]
      refine ⟨lower name ++ ':' :: toText port, ?_, ?_,
        hostOf_port hchars (not_mem_toText (by decide) (by decide) port)⟩
      · rw [portText, if_neg hnone]
      · have hport : '/' ∉ toText port := not_mem_toText (by decide) (by decide) port
        simp [hslash, hport]
  obtain ⟨authority, heq, hslash, hhost, hportOf⟩ := hauthority
  have htext : targetText name port path params = authority ++ '/' :: rest := by
    rw [← heq, List.append_assoc, ← hrest]
    rfl
  have hmem : '/' ∈ authority ++ '/' :: rest := by simp
  rw [htext, hrest, hostRead, portRead, if_pos hmem, if_pos hmem, upTo_split hslash]
  refine ⟨hmem, hhost, hportOf, ?_⟩
  simp only [pathAndQuery]
  rw [behind_split hslash, behind_cons_self]

/-- A port that fits in 16 bits is read as it was written. -/
theorem portNumber_toText {scheme : Str} {port : Int} (hpos : 0 ≤ port) (hport : port < 2 ^ 16) :
    portNumber scheme (toText port) = port := by
  obtain ⟨n, rfl⟩ := Int.eq_ofNat_of_zero_le hpos
  have htext : toText n = decimal n := rfl
  simp only [portNumber, atoiPort]
  rw [htext, if_neg (decimal_ne_nil n), ofDecimal_decimal]
  omega

theorem rightTarget_of_slash {scheme name : Str} {port : Int} {path : Str} {params : List Str}
    (hname : ∀ ch ∈ name, isUnreserved ch = true) (hpath : path.head? = some '/')
    (hport : port = -1 ∨ 0 ≤ port ∧ port < 2 ^ 16) :
    RightTarget scheme name port (targetText name port path params) := by
  obtain ⟨-, hhost, hread, -⟩ := target_of_slash hname hpath port params
  refine ⟨hhost, ?_⟩
  rw [hread]
  simp only [givenPort]
  rcases hport with rfl | ⟨hpos, hsmall⟩
  · rfl
  · rw [if_neg (by omega), if_neg (by omega)]
    exact portNumber_toText hpos hsmall

end Ssgx.Http
