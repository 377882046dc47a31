import Ssgx.Http.Target
import Ssgx.Http.UrlText

/-!
# What a valid URL says

A text that the parser accepts need not have a scheme, a host or a port that the client can connect
to: the parser checks neither that the parts are there nor that the digits of a port fit in 16 bits,
and takes a port only where a `/` ends it. `WritesTarget` says what the text must have for the URL
to hold the host and the port that are written in it (`sound_iff`).
-/

set_option autoImplicit false

namespace Ssgx.Http

open Ssgx.Support

/-- **The intended URL.** It has a scheme and the host of its text; the port of its text, where
there is one, is a decimal number of a TCP port and the number of the URL, and the client connects
to both. -/
structure SoundUrl (text : Str) (url : HttpUrl) : Prop where
  scheme : url.url.scheme ≠ []
  hostname : url.url.hostname ≠ []
  written : url.url.hostname = hostOf (authorityText text)
  port : portOf (authorityText text) ≠ [] → AllDigits (portOf (authorityText text)) ∧
    1 ≤ ofDecimal (portOf (authorityText text)) ∧
    ofDecimal (portOf (authorityText text)) ≤ 65535 ∧
    url.httpPort = ofDecimal (portOf (authorityText text))
  connects : ∀ (S : Type) (io : ExchangeIo) (parser : ResponseParser S) (isHttps toHttps : Bool)
    (request hostname port : Str),
    .connect toHttps hostname port ∈ (doRequest io parser url isHttps request).events →
      hostname = hostOf (authorityText text) ∧ (portOf (authorityText text) ≠ [] →
        port = decimal (ofDecimal (portOf (authorityText text))))

/-- The text has a scheme and a host, and, where it has the text of a port, digits: of a number from
1 to 65535 that a `/` ends, or of the port of the scheme anyway. Where no `/` ends the authority,
the host is not a bracket. -/
structure WritesTarget (text : Str) : Prop where
  scheme : schemeText text ≠ []
  host : hostOf (authorityText text) ≠ []
  bracket : '/' ∉ restText text → hostOf (authorityText text) ≠ ['[']
  port : portOf (authorityText text) ≠ [] → AllDigits (portOf (authorityText text)) ∧
    if '/' ∈ restText text then
      1 ≤ ofDecimal (portOf (authorityText text)) ∧
        ofDecimal (portOf (authorityText text)) ≤ 65535
    else ofDecimal (portOf (authorityText text)) = defaultPort (schemeText text)

/-! ## Host and port of a valid URL -/

theorem httpPort_of_empty {url : HttpUrl} (h : url.url.port = []) :
    url.httpPort = defaultPort url.url.scheme := by
  simp only [HttpUrl.httpPort, h, List.isEmpty_nil, if_true, defaultPort]

theorem httpPort_of_nonempty {url : HttpUrl} (h : url.url.port ≠ []) :
    url.httpPort = url.url.integerPort := by
  have hne : url.url.port.isEmpty = false := by
    rw [List.isEmpty_eq_false_iff]
    exact h
  simp only [HttpUrl.httpPort, hne, Bool.false_eq_true, if_false]

theorem atoiPort_of_le {digits : Str} (h : ofDecimal digits ≤ 65535) :
    atoiPort digits = ofDecimal digits := by
  have hmin : min (ofDecimal digits) (2 ^ 63 - 1) = ofDecimal digits := Nat.min_eq_left (by omega)
  rw [atoiPort, hmin]
  exact Nat.mod_eq_of_lt (by omega)

theorem defaultPort_range (scheme : Str) : 1 ≤ defaultPort scheme ∧ defaultPort scheme ≤ 65535 := by
  simp only [defaultPort]
  split_ifs
  · decide
  · decide

/-- The client connects to the host and port of its URL, so a URL is sound by its own parts. -/
theorem soundUrl_iff {text : Str} {url : HttpUrl} :
    SoundUrl text url ↔ url.url.scheme ≠ [] ∧ url.url.hostname ≠ [] ∧
      url.url.hostname = hostOf (authorityText text) ∧
      (portOf (authorityText text) ≠ [] → AllDigits (portOf (authorityText text)) ∧
        1 ≤ ofDecimal (portOf (authorityText text)) ∧
        ofDecimal (portOf (authorityText text)) ≤ 65535 ∧
        url.httpPort = ofDecimal (portOf (authorityText text))) := by
  constructor
  · rintro ⟨hscheme, hhost, hwritten, hport, -⟩
    exact ⟨hscheme, hhost, hwritten, hport⟩
  · rintro ⟨hscheme, hhost, hwritten, hport⟩
    refine ⟨hscheme, hhost, hwritten, hport, ?_⟩
    intro S io parser isHttps toHttps request hostname port hmem
    obtain ⟨-, rfl, rfl⟩ := doRequest_connects.1 hmem
    refine ⟨hwritten, fun hne => ?_⟩
    rw [HttpUrl.port, (hport hne).2.2.2]

/-- A text with an authority that a `/` ends. -/
theorem soundUrl_iff_slash {text : Str} {url : HttpUrl} (hslash : '/' ∈ restText text)
    (hscheme : url.url.scheme = schemeText text)
    (hhost : url.url.hostname = hostOf (authorityText text))
    (hport : url.url.port = portOf (authorityText text))
    (hinteger : url.url.integerPort = atoiPort (portOf (authorityText text)))
    (hdigits : AllDigits (portOf (authorityText text))) :
    SoundUrl text url ↔ WritesTarget text := by
  rw [soundUrl_iff, hscheme, hhost]
  constructor
  · rintro ⟨hs, hh, -, hp⟩
    refine ⟨hs, hh, fun hno => absurd hslash hno, fun hne => ⟨hdigits, ?_⟩⟩
    rw [if_pos hslash]
    exact ⟨(hp hne).2.1, (hp hne).2.2.1⟩
  · rintro ⟨hs, hh, -, hp⟩
    refine ⟨hs, hh, rfl, fun hne => ?_⟩
    have hrange := (hp hne).2
    rw [if_pos hslash] at hrange
    refine ⟨hdigits, hrange.1, hrange.2, ?_⟩
    rw [httpPort_of_nonempty (hport ▸ hne), hinteger, atoiPort_of_le hrange.2]

/-- A text that ends with its authority. -/
theorem soundUrl_iff_open {text : Str} {url : HttpUrl} (hslash : '/' ∉ restText text)
    (hscheme : url.url.scheme = schemeText text)
    (hhost : url.url.hostname = openHost (authorityText text)) (hport : url.url.port = []) :
    SoundUrl text url ↔ WritesTarget text := by
  have hhttp : url.httpPort = defaultPort (schemeText text) := by
    rw [httpPort_of_empty hport, hscheme]
  rw [soundUrl_iff, hscheme, hhost, hhttp]
  simp only [openHost]
  constructor
  · rintro ⟨hs, hh, -, hp⟩
    -- the host is empty where a password or a bracket is open
    by_cases hopen : (∀ ch ∈ portOf (authorityText text), ch.isDigit = true) ∧
        hostOf (authorityText text) ≠ ['[']
    · rw [if_pos hopen] at hh
      refine ⟨hs, hh, fun _ => hopen.2, fun hne => ⟨hopen.1, ?_⟩⟩
      rw [if_neg hslash]
      exact (hp hne).2.2.2.symm
    · rw [if_neg hopen] at hh
      exact absurd rfl hh
  · rintro ⟨hs, hh, hbracket, hp⟩
    have hopen : (∀ ch ∈ portOf (authorityText text), ch.isDigit = true) ∧
        hostOf (authorityText text) ≠ ['['] := by
      refine ⟨?_, hbracket hslash⟩
      by_cases hne : portOf (authorityText text) = []
      · rw [hne]
        simp
      · exact (hp hne).1
    rw [if_pos hopen]
    refine ⟨hs, hh, rfl, fun hne => ?_⟩
    have hdefault := (hp hne).2
    rw [if_neg hslash] at hdefault
    rw [hdefault]
    exact ⟨(hp hne).1, (defaultPort_range _).1, (defaultPort_range _).2, rfl⟩

/-- **When a valid URL is sound.** A URL that the parser marks valid has the scheme, the host and
the port of its text exactly where the text writes a target. -/
theorem sound_iff {ndebug : Bool} {text : Str} {url : HttpUrl}
    (h : parseUrl ndebug text = some url) (hvalid : url.valid = true) :
    SoundUrl text url ↔ WritesTarget text := by
  rcases UrlParser.start_run_cases text with ⟨hhas, hrun⟩ | ⟨hno, hnameless, hempty⟩
  · obtain ⟨hscheme, hhost, hport, hinteger, hdigits⟩ := parseUrl_target_of_run hrun h hvalid
    by_cases hslash : '/' ∈ restText text
    · simp only [hostRead, portRead, if_pos hslash] at hhost hport hinteger hdigits
      exact soundUrl_iff_slash hslash hscheme hhost hport hinteger hdigits
    · have hall : authorityText text = restText text := upTo_of_not_mem hslash
      simp only [hostRead, portRead, if_neg hslash] at hhost hport
      rw [← hall] at hhost
      exact soundUrl_iff_open hslash hscheme hhost hport
  -- without an authority there is no host
  · obtain ⟨hgoing, hurl⟩ := parseUrl_run h hvalid
    have hhost : url.url.hostname = [] := by
      rw [hurl]
      simp only [UrlParser.resultHost, hnameless.usernameOrHostname, List.isEmpty_nil, if_true,
        hnameless.hostname]
    refine iff_of_false (fun hsound => hsound.hostname hhost) fun hwrites => hwrites.host ?_
    rw [hempty hgoing]
    rfl

/-- `http://h:8080/` writes a target. -/
theorem sound_iff_sample :
    ∃ url, parseUrl false (str "http://h:8080/") = some url ∧
      (SoundUrl (str "http://h:8080/") url ↔ WritesTarget (str "http://h:8080/")) := by
  have hparse : parseUrl false (str "http://h:8080/") =
      some ⟨true, urlWith (str "http") (str "h") (str "8080") (str "/") [] [] 8080⟩ := by
    decide
  exact ⟨_, hparse, sound_iff hparse rfl⟩

/-- `http://h:99999/` is a valid URL, and its port is 34463. -/
theorem large_port_is_valid :
    ¬ ∀ (ndebug : Bool) (text : Str) (url : HttpUrl), parseUrl ndebug text = some url →
      url.valid = true → SoundUrl text url := by
  intro h
  have hparse : parseUrl false (str "http://h:99999/") = some
      ⟨true, urlWith (str "http") (str "h") (str "99999") (str "/") [] [] 34463⟩ := by decide
  have hsound := h _ _ _ hparse rfl
  have hrange := (hsound.port (by decide)).2.2.1
  exact absurd hrange (by decide)

end Ssgx.Http
