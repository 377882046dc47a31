import Ssgx.Http.UrlRoundTrip

/-!
# Any text as a URL

The parser is given texts that nobody wrote as URLs. `restText` is what it takes for the text behind
`scheme://`: also a text that begins right behind the `:`, with a letter or a digit. A text without
such a part ends, or is refused, before the parser has a name (`UrlParser.start_run_cases`).

`UrlParser.run_stops` gives the character at which a run ends, and `UrlParser.step_stops` the two
ways in which a character does that.
-/

set_option autoImplicit false

namespace Ssgx.Http

open Ssgx.Support

/-! ## The parts of a text -/

/-- The text in front of the first `:`. -/
def schemeText (text : Str) : Str := upTo ':' text

/-- A text without two slashes that it begins with. -/
def withoutSlashes : Str → Str
  | '/' :: '/' :: rest => rest
  | rest => rest

/-- The text behind the first `:`, without two slashes. -/
def restText (text : Str) : Str := withoutSlashes (behind ':' text)

/-- The text up to the `/` that a path begins with. -/
def authorityText (text : Str) : Str := upTo '/' (restText text)

/-- What is behind the `:` begins with two slashes, or with a letter or a digit. -/
def OpensAuthority : Str → Prop
  | '/' :: '/' :: _ => True
  | ch :: _ => isAlnum ch = true
  | [] => False

/-- A scheme, a `:`, and the beginning of an authority. -/
def HasAuthority (text : Str) : Prop :=
  ':' ∈ text ∧ (∀ ch ∈ schemeText text, isSchemeChar ch = true) ∧ OpensAuthority (behind ':' text)

/-- The parser has neither a name nor a port, and has not aborted. -/
structure UrlParser.Nameless (s : UrlParser) : Prop where
  aborted : s.aborted = false
  usernameOrHostname : s.usernameOrHostname = []
  portOrPassword : s.portOrPassword = []
  hostname : s.url.hostname = []

theorem opensAuthority_cons_iff {ch : Char} {tail : Str} :
    OpensAuthority (ch :: tail) ↔ isAlnum ch = true ∨ ch = '/' ∧ ∃ rest, tail = '/' :: rest := by
  by_cases hslash : ch = '/'
  · subst hslash
    have hno : ¬ isAlnum '/' = true := by decide
    cases tail with
    | nil => simp [OpensAuthority, hno]
    | cons c tail =>
        by_cases hc : c = '/'
        · subst hc
          simp [OpensAuthority]
        · simp [OpensAuthority, hno, hc]
  · simp [OpensAuthority, hslash]

theorem withoutSlashes_of_ne {ch : Char} (h : ch ≠ '/') (tail : Str) :
    withoutSlashes (ch :: tail) = ch :: tail := by
  simp [withoutSlashes, h]

/-! ## How a run ends -/

/-- A run that is at its end ended at a character. -/
theorem UrlParser.run_stops {s : UrlParser} {text : Str} (h : s.Going)
    (hstop : ¬ (s.run text).Going) :
    ∃ front ch tail, text = front ++ ch :: tail ∧ (s.run front).Going ∧
      s.run text = (s.run front).step ch ∧ ¬ ((s.run front).step ch).Going := by
  induction text generalizing s with
  | nil => exact absurd h hstop
  | cons ch text ih =>
      rw [UrlParser.run_cons h] at hstop
      by_cases hstep : (s.step ch).Going
      · obtain ⟨front, c, tail, rfl, hfront, hrun, hend⟩ := ih hstep hstop
        have hback := UrlParser.run_cons h ch front
        rw [← hback] at hfront hrun hend
        exact ⟨ch :: front, c, tail, rfl, hfront, (UrlParser.run_cons h ch _).trans hrun, hend⟩
      · refine ⟨[], ch, text, rfl, h, ?_, hstep⟩
        rw [UrlParser.run_cons h, UrlParser.run_of_not_going hstep]
        rfl

/-- A character ends a run in the state of an IPv6 host, where the parser aborts, or because it is
refused. -/
theorem UrlParser.step_stops {s : UrlParser} {ch : Char} (h : s.Going)
    (hstop : ¬ (s.step ch).Going) :
    (s.state = .ipv6Hostname ∧ s.step ch = { s with aborted := true }) ∨
      (s.state ≠ .ipv6Hostname ∧ s.step ch = s.reject) := by
  rcases s with ⟨state, valid, aborted, url, usernameOrHostname, portOrPassword⟩
  obtain ⟨hvalid, haborted⟩ := h
  cases hvalid
  cases haborted
  cases state with
  | ipv6Hostname => exact Or.inl ⟨rfl, rfl⟩
  | fragment => exact absurd ⟨rfl, rfl⟩ hstop
  | _ =>
      -- every branch of these states goes on, or rejects the text
      refine Or.inr ⟨by simp, ?_⟩
      simp only [UrlParser.step, UrlParser.Going, UrlParser.takePort] at hstop ⊢
      split_ifs at hstop ⊢
      all_goals first | rfl | exact absurd ⟨rfl, rfl⟩ hstop

theorem UrlParser.not_going_reject (s : UrlParser) : ¬ s.reject.Going := fun hgoing =>
  Bool.false_ne_true hgoing.1

/-- A character that is refused ends the run. -/
theorem UrlParser.run_cons_of_reject {s : UrlParser} {ch : Char} (h : s.Going)
    (hstep : s.step ch = s.reject) (tail : Str) : s.run (ch :: tail) = s.reject := by
  rw [UrlParser.run_cons h, hstep, UrlParser.run_of_not_going s.not_going_reject]

/-! ## Up to the authority -/

/-- The characters of a scheme in front of a text. -/
theorem exists_schemeChars (text : Str) :
    ∃ scheme rest, text = scheme ++ rest ∧ (∀ ch ∈ scheme, isSchemeChar ch = true) ∧
      ∀ ch ∈ rest.head?, isSchemeChar ch = false := by
  induction text with
  | nil => exact ⟨[], [], rfl, by simp, by simp⟩
  | cons ch text ih =>
      cases hch : isSchemeChar ch with
      | true =>
          obtain ⟨scheme, rest, rfl, hscheme, hrest⟩ := ih
          refine ⟨ch :: scheme, rest, rfl, ?_, hrest⟩
          intro c hmem
          rcases List.mem_cons.1 hmem with rfl | hmem
          · exact hch
          · exact hscheme c hmem
      | false => exact ⟨[], ch :: text, rfl, by simp, by simpa using hch⟩

theorem noColon_of_schemeChars {scheme : Str} (h : ∀ ch ∈ scheme, isSchemeChar ch = true) :
    ':' ∉ scheme := by
  intro hmem
  exact absurd (h ':' hmem) (by decide)

/-- A text whose scheme ends without a `:`, or at a character that does not belong to it. -/
theorem start_run_noColon {scheme rest : Str} (hscheme : ∀ ch ∈ scheme, isSchemeChar ch = true)
    (hrest : ∀ ch ∈ rest.head?, isSchemeChar ch = false ∧ ch ≠ ':') :
    ¬ HasAuthority (scheme ++ rest) ∧ (UrlParser.start.run (scheme ++ rest)).Nameless ∧
      ((UrlParser.start.run (scheme ++ rest)).Going → authorityText (scheme ++ rest) = []) := by
  have hno := noColon_of_schemeChars hscheme
  rw [run_schemeChars hscheme]
  cases rest with
  | nil =>
      rw [List.append_nil]
      refine ⟨fun h => hno h.1, ⟨rfl, rfl, rfl, rfl⟩, fun _ => ?_⟩
      simp only [authorityText, restText, behind_of_not_mem hno]
      rfl
  | cons ch tail =>
      obtain ⟨hch, hcolon⟩ := hrest ch rfl
      have hstep : (UrlParser.reading .scheme (urlWith scheme [] [] ['/'] [] [] 0) [] []).step ch =
          (UrlParser.reading .scheme (urlWith scheme [] [] ['/'] [] [] 0) [] []).reject := by
        have hother : ¬ (isAlnum ch || ch = '+' || ch = '-' || ch = '.') = true :=
          Bool.eq_false_iff.1 hch
        simp only [UrlParser.step, UrlParser.reading]
        rw [if_neg hother, if_neg hcolon]
      rw [UrlParser.run_cons_of_reject (UrlParser.going_reading _ _ _ _) hstep]
      refine ⟨?_, ⟨rfl, rfl, rfl, rfl⟩, fun hgoing => absurd hgoing (UrlParser.not_going_reject _)⟩
      -- the character would belong to the scheme of the text
      rintro ⟨-, hall, -⟩
      have hmem : ch ∈ schemeText (scheme ++ ch :: tail) := by
        rw [schemeText, upTo_append hno, upTo, if_neg hcolon]
        simp
      rw [hall ch hmem] at hch
      cases hch

/-- The parser behind `scheme:`. -/
def UrlParser.behindScheme (scheme : Str) (state : UrlState) : UrlParser :=
  .reading state (urlWith scheme [] [] ['/'] [] [] 0) [] []

theorem UrlParser.going_behindScheme (scheme : Str) (state : UrlState) :
    (UrlParser.behindScheme scheme state).Going := ⟨rfl, rfl⟩

/-- Behind one slash the parser takes a second one, and nothing else. -/
theorem slashAfterScheme2_run (scheme tail : Str) :
    (∃ rest, tail = '/' :: rest ∧ (UrlParser.behindScheme scheme .slashAfterScheme2).run tail =
      (UrlParser.inAuthority scheme .usernameOrHostname [] [] [] [] []).run rest) ∨
    ((¬ ∃ rest, tail = '/' :: rest) ∧
      ((UrlParser.behindScheme scheme .slashAfterScheme2).run tail).Nameless ∧
      (((UrlParser.behindScheme scheme .slashAfterScheme2).run tail).Going → tail = [])) := by
  cases tail with
  | nil => exact Or.inr ⟨by simp, ⟨rfl, rfl, rfl, rfl⟩, fun _ => rfl⟩
  | cons ch tail =>
      by_cases hslash : ch = '/'
      · subst hslash
        exact Or.inl ⟨tail, rfl, UrlParser.run_cons (UrlParser.going_behindScheme _ _) _ _⟩
      · have hstep : (UrlParser.behindScheme scheme .slashAfterScheme2).step ch =
            (UrlParser.behindScheme scheme .slashAfterScheme2).reject := if_neg hslash
        rw [UrlParser.run_cons_of_reject (UrlParser.going_behindScheme _ _) hstep]
        exact Or.inr ⟨by simp [hslash], ⟨rfl, rfl, rfl, rfl⟩,
          fun hgoing => absurd hgoing (UrlParser.not_going_reject _)⟩

/-- Behind the `:` the parser takes two slashes, or a letter or a digit that begins the name. -/
theorem slashAfterScheme1_run (scheme tail : Str) :
    (OpensAuthority tail ∧ (UrlParser.behindScheme scheme .slashAfterScheme1).run tail =
      (UrlParser.inAuthority scheme .usernameOrHostname [] [] [] [] []).run
        (withoutSlashes tail)) ∨
    (¬ OpensAuthority tail ∧
      ((UrlParser.behindScheme scheme .slashAfterScheme1).run tail).Nameless ∧
      (((UrlParser.behindScheme scheme .slashAfterScheme1).run tail).Going →
        upTo '/' (withoutSlashes tail) = [])) := by
  cases tail with
  | nil => exact Or.inr ⟨id, ⟨rfl, rfl, rfl, rfl⟩, fun _ => rfl⟩
  | cons ch tail =>
      rw [opensAuthority_cons_iff]
      by_cases hslash : ch = '/'
      · subst hslash
        have hno : ¬ isAlnum '/' = true := by decide
        have hfirst : (UrlParser.behindScheme scheme .slashAfterScheme1).run ('/' :: tail) =
            (UrlParser.behindScheme scheme .slashAfterScheme2).run tail :=
          UrlParser.run_cons (UrlParser.going_behindScheme _ _) _ _
        rw [hfirst]
        rcases slashAfterScheme2_run scheme tail with ⟨rest, rfl, hrun⟩ | ⟨hone, hnameless, hend⟩
        · exact Or.inl ⟨Or.inr ⟨rfl, rest, rfl⟩, hrun⟩
        · refine Or.inr ⟨?_, hnameless, fun hgoing => ?_⟩
          · rintro (halnum | ⟨-, htwo⟩)
            · exact hno halnum
            · exact hone htwo
          · rw [hend hgoing]
            rfl
      · rw [withoutSlashes_of_ne hslash]
        cases halnum : isAlnum ch with
        | true =>
            refine Or.inl ⟨Or.inl rfl, ?_⟩
            have hname : (isUnreserved ch || ch = '%') = true := by
              simp only [isUnreserved, halnum, Bool.true_or]
            rw [UrlParser.run_cons (UrlParser.going_behindScheme _ _),
              UrlParser.run_cons ⟨rfl, rfl⟩]
            simp only [UrlParser.step, UrlParser.behindScheme, UrlParser.reading,
              UrlParser.inAuthority]
            rw [if_neg hslash, if_pos halnum, if_pos hname]
            rfl
        | false =>
            have hstep : (UrlParser.behindScheme scheme .slashAfterScheme1).step ch =
                (UrlParser.behindScheme scheme .slashAfterScheme1).reject := by
              simp only [UrlParser.step, UrlParser.behindScheme, UrlParser.reading]
              rw [if_neg hslash, if_neg (by rw [halnum]; decide)]
            rw [UrlParser.run_cons_of_reject (UrlParser.going_behindScheme _ _) hstep]
            exact Or.inr ⟨by simp [hslash], ⟨rfl, rfl, rfl, rfl⟩,
              fun hgoing => absurd hgoing (UrlParser.not_going_reject _)⟩

/-- A text with a scheme and a `:`, by what is behind it. -/
theorem start_run_colon {scheme : Str} (hscheme : ∀ ch ∈ scheme, isSchemeChar ch = true)
    (tail : Str) :
    (HasAuthority (scheme ++ ':' :: tail) ∧ UrlParser.start.run (scheme ++ ':' :: tail) =
        (UrlParser.inAuthority scheme .usernameOrHostname [] [] [] [] []).run
          (restText (scheme ++ ':' :: tail))) ∨
      ¬ HasAuthority (scheme ++ ':' :: tail) ∧
        (UrlParser.start.run (scheme ++ ':' :: tail)).Nameless ∧
        ((UrlParser.start.run (scheme ++ ':' :: tail)).Going →
          authorityText (scheme ++ ':' :: tail) = []) := by
  have hno := noColon_of_schemeChars hscheme
  have hbehind := behind_split hno tail
  have hcolon : ':' ∈ scheme ++ ':' :: tail := by simp
  have hrun : UrlParser.start.run (scheme ++ ':' :: tail) =
      (UrlParser.behindScheme scheme .slashAfterScheme1).run tail := by
    rw [run_schemeChars hscheme, UrlParser.run_cons (UrlParser.going_reading _ _ _ _)]
    rfl
  simp only [HasAuthority, authorityText, restText, schemeText, upTo_split hno, hbehind]
  rw [hrun]
  rcases slashAfterScheme1_run scheme tail with ⟨hopens, heq⟩ | ⟨hopens, hnameless, hend⟩
  · exact Or.inl ⟨⟨hcolon, hscheme, hopens⟩, heq⟩
  · exact Or.inr ⟨fun h => hopens h.2.2, hnameless, hend⟩

/-- **The beginning of a run.** The parser reads the authority of a text that has one, and has read
nothing of a name where there is none. -/
theorem UrlParser.start_run_cases (text : Str) :
    (HasAuthority text ∧ UrlParser.start.run text =
        (UrlParser.inAuthority (schemeText text) .usernameOrHostname [] [] [] [] []).run
          (restText text)) ∨
      ¬ HasAuthority text ∧ (UrlParser.start.run text).Nameless ∧
        ((UrlParser.start.run text).Going → authorityText text = []) := by
  obtain ⟨scheme, rest, rfl, hscheme, hrest⟩ := exists_schemeChars text
  cases rest with
  | nil => exact Or.inr (start_run_noColon hscheme (by simp))
  | cons ch tail =>
      by_cases hcolon : ch = ':'
      · subst hcolon
        rw [schemeText, upTo_split (noColon_of_schemeChars hscheme)]
        exact start_run_colon hscheme tail
      · refine Or.inr (start_run_noColon hscheme ?_)
        rintro c ⟨⟩
        exact ⟨hrest ch rfl, hcolon⟩

/-- A run that goes on through a text without an authority is at the end of the scheme, of its `:`,
or of one slash. -/
theorem UrlParser.start_run_nameless {text : Str} (hno : ¬ HasAuthority text)
    (hgoing : (UrlParser.start.run text).Going) :
    ∃ scheme state, (∀ ch ∈ scheme, isSchemeChar ch = true) ∧
      (text = scheme ∨ text = scheme ++ [':'] ∨ text = scheme ++ [':', '/']) ∧
      UrlParser.start.run text = .behindScheme scheme state := by
  obtain ⟨scheme, rest, rfl, hscheme, hrest⟩ := exists_schemeChars text
  have hcolon := noColon_of_schemeChars hscheme
  rw [run_schemeChars hscheme] at hgoing ⊢
  rcases rest with - | ⟨ch, tail⟩
  · exact ⟨scheme, .scheme, hscheme, .inl (List.append_nil _), rfl⟩
  rw [UrlParser.run_cons (UrlParser.going_reading _ _ _ _)] at hgoing ⊢
  have hch : ch = ':' := by
    by_contra hne
    have hother : ¬ (isAlnum ch || ch = '+' || ch = '-' || ch = '.') = true :=
      Bool.eq_false_iff.1 (hrest ch rfl)
    have hstep := UrlParser.going_of_run hgoing
    simp only [UrlParser.step, UrlParser.reading] at hstep
    rw [if_neg hother, if_neg hne] at hstep
    exact UrlParser.not_going_reject _ hstep
  subst hch
  have hopens : ¬ OpensAuthority tail := fun hopens => hno
    ⟨by simp, by rw [schemeText, upTo_split hcolon]; exact hscheme,
      by rwa [behind_split hcolon]⟩
  rcases tail with - | ⟨c, tail⟩
  · exact ⟨scheme, .slashAfterScheme1, hscheme, .inr (.inl rfl), rfl⟩
  rw [opensAuthority_cons_iff] at hopens
  obtain ⟨halnum, hslashes⟩ := not_or.1 hopens
  rw [UrlParser.run_cons ⟨rfl, rfl⟩] at hgoing ⊢
  have hc : c = '/' := by
    by_contra hne
    have hstep := UrlParser.going_of_run hgoing
    have hreject : ((UrlParser.behindScheme scheme .slashAfterScheme1).step c).Going := hstep
    simp only [UrlParser.step, UrlParser.behindScheme, UrlParser.reading] at hreject
    rw [if_neg hne, if_neg halnum] at hreject
    exact UrlParser.not_going_reject _ hreject
  subst hc
  rcases slashAfterScheme2_run scheme tail with ⟨rest, rfl, -⟩ | ⟨-, -, hend⟩
  · exact absurd ⟨rfl, rest, rfl⟩ hslashes
  · obtain rfl := hend hgoing
    exact ⟨scheme, .slashAfterScheme2, hscheme, .inr (.inr rfl), rfl⟩

/-- **The parts of a URL.** Every valid URL has the scheme, the host, the port, the path and the
query that its text has. -/
theorem parseUrl_parts {ndebug : Bool} {text : Str} {url : HttpUrl}
    (h : parseUrl ndebug text = some url) (hvalid : url.valid = true) :
    (url.url.scheme = schemeText text ∧ url.url.hostname = hostRead (restText text) ∧
      url.url.port = portRead (restText text) ∧
      url.url.integerPort = atoiPort (portRead (restText text))) ∧
    url.url.path = '/' :: (pathAndQuery (restText text)).1 ∧
      url.url.query = (pathAndQuery (restText text)).2 := by
  rcases UrlParser.start_run_cases text with ⟨-, hrun⟩ | ⟨hno, -, -⟩
  · obtain ⟨hscheme, hhost, hport, hinteger, -⟩ := parseUrl_target_of_run hrun h hvalid
    exact ⟨⟨hscheme, hhost, hport, hinteger⟩, parseUrl_path_of_run hrun h hvalid⟩
  · obtain ⟨hgoing, hurl⟩ := parseUrl_run h hvalid
    obtain ⟨scheme, state, hscheme, htext, hrun⟩ := UrlParser.start_run_nameless hno hgoing
    have hcolon := noColon_of_schemeChars hscheme
    rw [hurl, hrun]
    -- nothing is behind the scheme, or a slash that no name follows
    rcases htext with rfl | rfl | rfl
    · rw [schemeText, upTo_of_not_mem hcolon, restText, behind_of_not_mem hcolon]
      exact ⟨⟨rfl, rfl, rfl, rfl⟩, rfl, rfl⟩
    · rw [schemeText, upTo_split hcolon, restText, behind_split hcolon]
      exact ⟨⟨rfl, rfl, rfl, rfl⟩, rfl, rfl⟩
    · rw [schemeText, upTo_split hcolon, restText, behind_split hcolon]
      exact ⟨⟨rfl, rfl, rfl, rfl⟩, rfl, rfl⟩

/-! ## The characters of a host -/

/-- What may become the host has only characters of a name. -/
structure UrlParser.HostChars (s : UrlParser) : Prop where
  hostname : NameChars s.url.hostname
  usernameOrHostname : NameChars s.usernameOrHostname
  username : NameChars s.url.username

theorem UrlParser.HostChars.step {s : UrlParser} (h : s.HostChars) (ch : Char) :
    (s.step ch).HostChars := by
  obtain ⟨hhostname, hname, husername⟩ := h
  rcases s with ⟨state, valid, aborted, url, usernameOrHostname, portOrPassword⟩
  cases state with
  | slashAfterScheme1 =>
      simp only [UrlParser.step]
      split_ifs with hslash halnum
      · exact ⟨hhostname, hname, husername⟩
      · have hch : (isUnreserved ch || ch = '%') = true := by
          simp only [isUnreserved, halnum, Bool.true_or]
        exact ⟨hhostname, NameChars.nil.concat hch, husername⟩
      · exact ⟨.nil, hname, .nil⟩
  | usernameOrHostname =>
      simp only [UrlParser.step]
      split_ifs with hch
      · exact ⟨hhostname, hname.concat hch, husername⟩
      · exact ⟨hhostname, hname, husername⟩
      -- the name turns out to be one of a user, or of the host
      · exact ⟨hhostname, husername, hname⟩
      · exact ⟨hname, hhostname, husername⟩
      · exact ⟨.nil, hname, .nil⟩
  | hostname =>
      simp only [UrlParser.step]
      split_ifs with hbracket hch
      · exact ⟨hhostname, hname, husername⟩
      · exact ⟨hhostname.concat hch, hname, husername⟩
      · exact ⟨hhostname, hname, husername⟩
      · exact ⟨hhostname, hname, husername⟩
      · exact ⟨.nil, hname, .nil⟩
  | portOrPassword =>
      simp only [UrlParser.step]
      split_ifs
      · exact ⟨hhostname, hname, husername⟩
      · exact ⟨hname, hhostname, husername⟩
      · exact ⟨hhostname, husername, hname⟩
      · exact ⟨.nil, hname, .nil⟩
  | ipv6Hostname => exact ⟨hhostname, hname, husername⟩
  | fragment => exact ⟨hhostname, hname, husername⟩
  | _ =>
      -- these states leave the names as they are, or reject the text
      simp only [UrlParser.step]
      split_ifs
      all_goals first
        | exact ⟨hhostname, hname, husername⟩
        | exact ⟨.nil, hname, .nil⟩

theorem UrlParser.HostChars.run {s : UrlParser} (h : s.HostChars) (text : Str) :
    (s.run text).HostChars := by
  induction text generalizing s with
  | nil => exact h
  | cons ch text ih =>
      simp only [UrlParser.run]
      split_ifs
      · exact ih (h.step ch)
      · exact h

/-- The host of a URL has only characters of a name. -/
theorem parseUrl_hostChars {ndebug : Bool} {text : Str} {url : HttpUrl}
    (h : parseUrl ndebug text = some url) : NameChars url.url.hostname := by
  have hchars : (UrlParser.start.run text).HostChars :=
    UrlParser.HostChars.run ⟨.nil, .nil, .nil⟩ text
  simp only [parseUrl] at h
  split_ifs at h with habort hassert hempty
  · cases h
    exact hchars.hostname
  · cases h
    exact hchars.usernameOrHostname

end Ssgx.Http
