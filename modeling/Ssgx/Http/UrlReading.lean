import Ssgx.Http.Url

/-!
# What the URL parser reads

The text behind `scheme://` is an authority, up to the first `/`, and a path. `ReadsAuthority` says
for each state of `parse_` which authority brings it there; it is kept by every character
(`ReadsAuthority.step`). Behind the first `/` only path, query and fragment change.

`parseUrl_target` and `parseUrl_path_of_run` are the two results the client's proofs use: which host
and port, and which path and query, a valid URL has.
-/

set_option autoImplicit false

namespace Ssgx.Http

open Ssgx.Support

/-! ## The parts of an authority -/

/-- The part of an authority behind its user information. -/
def hostPort (authority : Str) : Str :=
  if '@' ∈ authority then behind '@' authority else authority

/-- The host in an authority. -/
def hostOf (authority : Str) : Str := upTo ':' (hostPort authority)

/-- The port in an authority. -/
def portOf (authority : Str) : Str := behind ':' (hostPort authority)

theorem hostPort_of_not_mem {authority : Str} (h : '@' ∉ authority) :
    hostPort authority = authority := if_neg h

theorem hostPort_append {info : Str} (h : '@' ∉ info) (rest : Str) :
    hostPort (info ++ '@' :: rest) = rest := by
  simp only [hostPort]
  rw [if_pos (by simp), behind_split h]

/-! ## The authority -/

/-- The variables of `parse_` while it reads the authority. -/
def UrlParser.inAuthority (scheme : Str) (state : UrlState)
    (username password hostname usernameOrHostname portOrPassword : Str) : UrlParser where
  state := state
  valid := true
  aborted := false
  url := ⟨scheme, username, password, hostname, [], ['/'], [], [], 0⟩
  usernameOrHostname := usernameOrHostname
  portOrPassword := portOrPassword

/-- A text of the characters that the parser reads as a name. -/
def NameChars (text : Str) : Prop := ∀ ch ∈ text, (isUnreserved ch || ch = '%') = true

/-- The text that brings `parse_` behind `scheme://` to this state. -/
inductive ReadsAuthority (scheme : Str) : Str → UrlParser → Prop where
  | name {name : Str} (chars : NameChars name) :
      ReadsAuthority scheme name (.inAuthority scheme .usernameOrHostname [] [] [] name [])
  | digits {name digits : Str} (chars : NameChars name) (all : ∀ ch ∈ digits, ch.isDigit = true) :
      ReadsAuthority scheme (name ++ ':' :: digits)
        (.inAuthority scheme .portOrPassword [] [] [] name digits)
  | password {name password : Str} (chars : NameChars name) (noAt : '@' ∉ password)
      (other : ∃ ch ∈ password, ch.isDigit = false) :
      ReadsAuthority scheme (name ++ ':' :: password)
        (.inAuthority scheme .password name password [] [] [])
  | host {info username password name : Str} (noInfo : '@' ∉ info) (chars : NameChars name) :
      ReadsAuthority scheme (info ++ '@' :: name)
        (.inAuthority scheme .hostname username password name [] [])
  | bracket {info username password : Str} (noInfo : '@' ∉ info) :
      ReadsAuthority scheme (info ++ ['@', '['])
        (.inAuthority scheme .ipv6Hostname username password [] [] [])
  | port {info username password name digits : Str} (noInfo : '@' ∉ info) (chars : NameChars name)
      (all : ∀ ch ∈ digits, ch.isDigit = true) :
      ReadsAuthority scheme (info ++ '@' :: (name ++ ':' :: digits))
        (.inAuthority scheme .port username password name [] digits)

theorem NameChars.nil : NameChars [] := by
  intro ch hmem
  cases hmem

theorem NameChars.concat {text : Str} {ch : Char} (h : NameChars text)
    (hch : (isUnreserved ch || ch = '%') = true) : NameChars (text ++ [ch]) := by
  intro c hmem
  rcases List.mem_append.1 hmem with hmem | hmem
  · exact h c hmem
  · rw [List.mem_singleton.1 hmem]
    exact hch

/-- A separator does not occur in a name. -/
theorem NameChars.not_mem {text : Str} (h : NameChars text) {c : Char}
    (hc : (isUnreserved c || c = '%') = false) : c ∉ text := by
  intro hmem
  rw [h c hmem] at hc
  cases hc

theorem NameChars.noAt {text : Str} (h : NameChars text) : '@' ∉ text := h.not_mem (by decide)

theorem NameChars.noColon {text : Str} (h : NameChars text) : ':' ∉ text := h.not_mem (by decide)

theorem NameChars.noBracket {text : Str} (h : NameChars text) : '[' ∉ text :=
  h.not_mem (by decide)

theorem all_digits_concat {text : Str} {ch : Char} (h : ∀ c ∈ text, c.isDigit = true)
    (hch : ch.isDigit = true) : ∀ c ∈ text ++ [ch], c.isDigit = true := by
  intro c hmem
  rcases List.mem_append.1 hmem with hmem | hmem
  · exact h c hmem
  · rw [List.mem_singleton.1 hmem]
    exact hch

/-- A character that is no digit does not occur in a text of digits. -/
theorem not_mem_digits {c : Char} {digits : Str} (all : ∀ ch ∈ digits, ch.isDigit = true)
    (hc : c.isDigit = false) : c ∉ digits := by
  intro hmem
  rw [all c hmem] at hc
  cases hc

theorem passwordChar_ne {ch : Char} (h : (isAlnum ch || ch = '%') = true) : '@' ≠ ch := by
  rintro rfl
  exact absurd h (by decide)

/-- **One character of an authority.** Unless the text is rejected, the character belongs to it. -/
theorem ReadsAuthority.step {scheme authority : Str} {s : UrlParser} {ch : Char}
    (h : ReadsAuthority scheme authority s) (hslash : ch ≠ '/') (hvalid : (s.step ch).valid = true)
    (habort : (s.step ch).aborted = false) :
    ReadsAuthority scheme (authority ++ [ch]) (s.step ch) := by
  cases h with
  | name chars =>
      simp only [UrlParser.step, UrlParser.inAuthority] at hvalid ⊢
      by_cases hname : (isUnreserved ch || ch = '%') = true
      · rw [if_pos hname]
        exact .name (chars.concat hname)
      rw [if_neg hname] at hvalid ⊢
      by_cases hcolon : ch = ':'
      · rw [if_pos hcolon, hcolon]
        exact .digits chars (by simp)
      rw [if_neg hcolon] at hvalid ⊢
      by_cases hat : ch = '@'
      · rw [if_pos hat, hat]
        exact .host chars.noAt .nil
      -- a `/` is excluded here, and no other character goes on
      rw [if_neg hat, if_neg hslash] at hvalid
      cases hvalid
  | @digits name digits chars all =>
      simp only [UrlParser.step, UrlParser.inAuthority] at hvalid ⊢
      rw [List.append_assoc, List.cons_append]
      by_cases hdigit : ch.isDigit = true
      · rw [if_pos hdigit]
        exact .digits chars (all_digits_concat all hdigit)
      rw [if_neg hdigit, if_neg hslash] at hvalid ⊢
      by_cases hpassword : (isAlnum ch || ch = '%') = true
      · rw [if_pos hpassword]
        -- the first character that is no digit makes a password of what was a port
        refine .password chars ?_ ⟨ch, by simp, Bool.eq_false_iff.2 hdigit⟩
        simp [not_mem_digits all (show '@'.isDigit = false by decide), passwordChar_ne hpassword]
      · rw [if_neg hpassword] at hvalid
        cases hvalid
  | @password name password chars noAt other =>
      simp only [UrlParser.step, UrlParser.inAuthority] at hvalid ⊢
      by_cases hpassword : (isAlnum ch || ch = '%') = true
      · rw [if_pos hpassword, List.append_assoc, List.cons_append]
        obtain ⟨c, hmem, hc⟩ := other
        exact .password chars (by simp [noAt, passwordChar_ne hpassword]) ⟨c, by simp [hmem], hc⟩
      rw [if_neg hpassword] at hvalid ⊢
      by_cases hat : ch = '@'
      · rw [if_pos hat, hat]
        exact .host (by simp [chars.noAt, noAt]) .nil
      · rw [if_neg hat] at hvalid
        cases hvalid
  | @host info username password name noInfo chars =>
      simp only [UrlParser.step, UrlParser.inAuthority, Bool.and_eq_true, decide_eq_true_eq,
        List.isEmpty_iff] at hvalid ⊢
      rw [List.append_assoc, List.cons_append]
      by_cases hbracket : ch = '[' ∧ name = []
      · rw [if_pos hbracket]
        -- only a bracket directly behind the `@` opens an address
        obtain ⟨rfl, rfl⟩ := hbracket
        exact .bracket noInfo
      rw [if_neg hbracket] at hvalid ⊢
      by_cases hname : (isUnreserved ch || ch = '%') = true
      · rw [if_pos hname]
        exact .host noInfo (chars.concat hname)
      rw [if_neg hname] at hvalid ⊢
      by_cases hcolon : ch = ':'
      · rw [if_pos hcolon, hcolon]
        exact .port noInfo chars (by simp)
      · rw [if_neg hcolon, if_neg hslash] at hvalid
        cases hvalid
  -- any character behind the bracket aborts
  | bracket noInfo => cases habort
  | @port info username password name digits noInfo chars all =>
      simp only [UrlParser.step, UrlParser.inAuthority] at hvalid ⊢
      rw [List.append_assoc, List.cons_append, List.append_assoc, List.cons_append]
      by_cases hdigit : ch.isDigit = true
      · rw [if_pos hdigit]
        exact .port noInfo chars (all_digits_concat all hdigit)
      · rw [if_neg hdigit, if_neg hslash] at hvalid
        cases hvalid

/-! ## The run -/

/-- The loop goes on: the text is not rejected, and the parser has not aborted. -/
def UrlParser.Going (s : UrlParser) : Prop := s.valid = true ∧ s.aborted = false

theorem UrlParser.run_cons {s : UrlParser} (h : s.Going) (ch : Char) (rest : Str) :
    s.run (ch :: rest) = (s.step ch).run rest := by
  rw [UrlParser.run, h.1, h.2]
  rfl

theorem UrlParser.run_of_not_going {s : UrlParser} (h : ¬ s.Going) (text : Str) :
    s.run text = s := by
  cases text with
  | nil => rfl
  | cons ch rest =>
      rw [UrlParser.run, if_neg]
      simpa [UrlParser.Going] using h

/-- The loop goes on as long as it is not at its end afterwards. -/
theorem UrlParser.going_of_run {s : UrlParser} {text : Str} (h : (s.run text).Going) : s.Going := by
  by_contra hnot
  rw [UrlParser.run_of_not_going hnot] at h
  exact hnot h

theorem UrlParser.run_append (s : UrlParser) (front back : Str) :
    s.run (front ++ back) = (s.run front).run back := by
  induction front generalizing s with
  | nil => rfl
  | cons ch front ih =>
      by_cases h : s.Going
      · rw [List.cons_append, UrlParser.run_cons h, UrlParser.run_cons h, ih]
      · rw [UrlParser.run_of_not_going h, UrlParser.run_of_not_going h,
          UrlParser.run_of_not_going h]

/-- **The run rule.** What every character that is admitted keeps while the parser goes on, a text
of such characters keeps. -/
theorem UrlParser.run_keeps {Reads : Str → UrlParser → Prop} {Admitted : Char → Prop}
    (hstep : ∀ front s ch, Reads front s → Admitted ch → (s.step ch).Going →
      Reads (front ++ [ch]) (s.step ch))
    {front text : Str} {s : UrlParser} (h : Reads front s) (htext : ∀ ch ∈ text, Admitted ch)
    (hgoing : (s.run text).Going) : Reads (front ++ text) (s.run text) := by
  induction text generalizing front s with
  | nil =>
      rw [List.append_nil]
      exact h
  | cons ch text ih =>
      have hs := UrlParser.going_of_run hgoing
      rw [UrlParser.run_cons hs] at hgoing ⊢
      have hch := hstep front s ch h (htext ch List.mem_cons_self) (UrlParser.going_of_run hgoing)
      have hrest := ih hch (fun c hmem => htext c (List.mem_cons_of_mem _ hmem)) hgoing
      rw [List.append_assoc] at hrest
      exact hrest

/-- **An authority.** A text without `/` that is not rejected brings the parser where
`ReadsAuthority` says. -/
theorem ReadsAuthority.run {scheme front text : Str} {s : UrlParser}
    (h : ReadsAuthority scheme front s) (hslash : '/' ∉ text) (hgoing : (s.run text).Going) :
    ReadsAuthority scheme (front ++ text) (s.run text) := by
  have htext : ∀ ch ∈ text, ch ≠ '/' := fun ch hmem heq => hslash (heq ▸ hmem)
  refine UrlParser.run_keeps (fun _ _ _ hreads hne hstep => ?_) h htext hgoing
  exact ReadsAuthority.step hreads hne hstep.1 hstep.2

/-! ## The host and the port -/

/-- The host that `parse_` leaves in the URL. -/
def UrlParser.resultHost (s : UrlParser) : Str :=
  if s.usernameOrHostname.isEmpty then s.url.hostname else s.usernameOrHostname

/-- The variables of `parse_` where the path begins. -/
structure BeginsPath (scheme authority : Str) (s : UrlParser) : Prop where
  going : s.Going
  state : s.state = .path
  sameScheme : s.url.scheme = scheme
  hostname : s.url.hostname = hostOf authority
  port : s.url.port = portOf authority
  integerPort : s.url.integerPort = atoiPort (portOf authority)
  path : s.url.path = ['/']
  query : s.url.query = []
  usernameOrHostname : s.usernameOrHostname = []
  portOrPassword : s.portOrPassword = []
  digits : ∀ ch ∈ portOf authority, ch.isDigit = true

/-- A name alone has no port. -/
theorem hostOf_name {name : Str} (chars : NameChars name) :
    hostOf name = name ∧ portOf name = [] := by
  simp only [hostOf, portOf]
  rw [hostPort_of_not_mem chars.noAt]
  exact ⟨upTo_of_not_mem chars.noColon, behind_of_not_mem chars.noColon⟩

theorem hostOf_port {name port : Str} (chars : NameChars name) (noAt : '@' ∉ port) :
    hostOf (name ++ ':' :: port) = name ∧ portOf (name ++ ':' :: port) = port := by
  simp only [hostOf, portOf]
  rw [hostPort_of_not_mem (by simp [chars.noAt, noAt])]
  exact ⟨upTo_split chars.noColon port, behind_split chars.noColon port⟩

/-- A name with digits behind it. -/
theorem hostOf_digits {name digits : Str} (chars : NameChars name)
    (all : ∀ ch ∈ digits, ch.isDigit = true) :
    hostOf (name ++ ':' :: digits) = name ∧ portOf (name ++ ':' :: digits) = digits :=
  hostOf_port chars (not_mem_digits all (by decide))

/-- User information in front changes neither host nor port. -/
theorem hostOf_info {info rest : Str} (noInfo : '@' ∉ info) (noAt : '@' ∉ rest) :
    hostOf (info ++ '@' :: rest) = hostOf rest ∧ portOf (info ++ '@' :: rest) = portOf rest := by
  simp only [hostOf, portOf]
  rw [hostPort_append noInfo, hostPort_of_not_mem noAt]
  exact ⟨rfl, rfl⟩

theorem hostOf_info_name {info name : Str} (noInfo : '@' ∉ info) (chars : NameChars name) :
    hostOf (info ++ '@' :: name) = name ∧ portOf (info ++ '@' :: name) = [] := by
  obtain ⟨hhost, hport⟩ := hostOf_info noInfo chars.noAt
  rw [hhost, hport]
  exact hostOf_name chars

theorem hostOf_info_digits {info name digits : Str} (noInfo : '@' ∉ info) (chars : NameChars name)
    (all : ∀ ch ∈ digits, ch.isDigit = true) :
    hostOf (info ++ '@' :: (name ++ ':' :: digits)) = name ∧
      portOf (info ++ '@' :: (name ++ ':' :: digits)) = digits := by
  have hat := not_mem_digits all (show '@'.isDigit = false by decide)
  obtain ⟨hhost, hport⟩ := hostOf_info noInfo
    (show '@' ∉ name ++ ':' :: digits by simp [chars.noAt, hat])
  rw [hhost, hport]
  exact hostOf_digits chars all

/-- The `/` behind an authority. -/
theorem ReadsAuthority.slash {scheme authority : Str} {s : UrlParser}
    (h : ReadsAuthority scheme authority s) (hgoing : (s.step '/').Going) :
    BeginsPath scheme authority (s.step '/') := by
  cases h with
  | name chars =>
      obtain ⟨hhost, hport⟩ := hostOf_name chars
      exact ⟨hgoing, rfl, rfl, hhost.symm, hport.symm, by rw [hport]; rfl, rfl, rfl, rfl, rfl,
        by simp [hport]⟩
  | digits chars all =>
      obtain ⟨hhost, hport⟩ := hostOf_digits chars all
      exact ⟨hgoing, rfl, rfl, hhost.symm, hport.symm, by rw [hport]; rfl, rfl, rfl, rfl, rfl,
        hport.symm ▸ all⟩
  -- a `/` in a password is rejected
  | password chars noAt other => cases hgoing.1
  | @host info username password name noInfo chars =>
      obtain ⟨hhost, hport⟩ := hostOf_info_name noInfo chars
      have hstep : (UrlParser.inAuthority scheme .hostname username password name [] []).step '/' =
          { UrlParser.inAuthority scheme .hostname username password name [] [] with
            state := .path } := rfl
      rw [hstep] at hgoing ⊢
      exact ⟨hgoing, rfl, rfl, hhost.symm, hport.symm, by rw [hport]; rfl, rfl, rfl, rfl, rfl,
        by simp [hport]⟩
  | bracket noInfo => cases hgoing.2
  | port noInfo chars all =>
      obtain ⟨hhost, hport⟩ := hostOf_info_digits noInfo chars all
      exact ⟨hgoing, rfl, rfl, hhost.symm, hport.symm, by rw [hport]; rfl, rfl, rfl, rfl, rfl,
        hport.symm ▸ all⟩

/-- The port is checked digit by digit. -/
instance (authority : Str) : Decidable (∀ ch ∈ portOf authority, ch.isDigit = true) :=
  List.decidableBAll (fun ch : Char => ch.isDigit = true) _

/-- The host that is read where the text ends with the authority: none where a password or a bracket
is open. -/
def openHost (authority : Str) : Str :=
  if (∀ ch ∈ portOf authority, ch.isDigit = true) ∧ hostOf authority ≠ ['['] then hostOf authority
  else []

theorem openHost_of_digits {authority name : Str} (chars : NameChars name)
    (hhost : hostOf authority = name) (hport : ∀ ch ∈ portOf authority, ch.isDigit = true) :
    openHost authority = name := by
  have hne : hostOf authority ≠ ['['] := by
    intro heq
    rw [heq] at hhost
    exact chars.noBracket (hhost ▸ List.mem_singleton.2 rfl)
  exact (if_pos ⟨hport, hne⟩).trans hhost

/-- Where the text ends with the authority, the parser has its host, and no port. -/
theorem ReadsAuthority.end {scheme authority : Str} {s : UrlParser}
    (h : ReadsAuthority scheme authority s) :
    s.resultHost = openHost authority ∧ s.url.scheme = scheme ∧ s.url.port = [] ∧
      s.url.integerPort = 0 := by
  refine ⟨?_, by cases h <;> exact ⟨rfl, rfl, rfl⟩⟩
  cases h with
  | name chars =>
      obtain ⟨hhost, hport⟩ := hostOf_name chars
      have hresult : UrlParser.resultHost
          (.inAuthority scheme .usernameOrHostname [] [] [] authority []) = authority := by
        cases authority <;> rfl
      rw [hresult, openHost_of_digits chars hhost (by simp [hport])]
  | @digits name digits chars all =>
      obtain ⟨hhost, hport⟩ := hostOf_digits chars all
      have hresult : UrlParser.resultHost
          (.inAuthority scheme .portOrPassword [] [] [] name digits) = name := by
        cases name <;> rfl
      rw [hresult, openHost_of_digits chars hhost (by simpa [hport] using all)]
  | @password name password chars noAt other =>
      obtain ⟨hhost, hport⟩ := hostOf_port chars noAt
      obtain ⟨ch, hmem, hch⟩ := other
      -- no `@` has come: what was read is user information, and the host is empty
      refine (if_neg ?_).symm
      rintro ⟨hall, -⟩
      rw [hport] at hall
      rw [hall ch hmem] at hch
      cases hch
  | host noInfo chars =>
      obtain ⟨hhost, hport⟩ := hostOf_info_name noInfo chars
      rw [openHost_of_digits chars hhost (by simp [hport])]
      rfl
  | bracket noInfo =>
      obtain ⟨hhost, -⟩ := hostOf_info noInfo (show '@' ∉ ['['] by decide)
      refine (if_neg ?_).symm
      rintro ⟨-, hne⟩
      exact hne hhost
  | port noInfo chars all =>
      obtain ⟨hhost, hport⟩ := hostOf_info_digits noInfo chars all
      rw [openHost_of_digits chars hhost (by simpa [hport] using all)]
      rfl

/-- In the authority, path and query are those of the start. -/
theorem ReadsAuthority.path {scheme authority : Str} {s : UrlParser}
    (h : ReadsAuthority scheme authority s) : s.url.path = ['/'] ∧ s.url.query = [] := by
  cases h <;> exact ⟨rfl, rfl⟩

/-! ## The path -/

/-- Behind the authority, the parser adds to the path and to the query only, and to the fragment,
which nothing reads. -/
structure AddsPath (s t : UrlParser) (path query : Str) : Prop where
  going : t.Going
  sameScheme : t.url.scheme = s.url.scheme
  hostname : t.url.hostname = s.url.hostname
  port : t.url.port = s.url.port
  integerPort : t.url.integerPort = s.url.integerPort
  usernameOrHostname : t.usernameOrHostname = s.usernameOrHostname
  portOrPassword : t.portOrPassword = s.portOrPassword
  path : t.url.path = s.url.path ++ path
  query : t.url.query = s.url.query ++ query

theorem AddsPath.refl {s : UrlParser} (h : s.Going) : AddsPath s s [] [] :=
  ⟨h, rfl, rfl, rfl, rfl, rfl, rfl, (List.append_nil _).symm, (List.append_nil _).symm⟩

theorem AddsPath.trans {s t u : UrlParser} {path query path' query' : Str}
    (h : AddsPath s t path query) (h' : AddsPath t u path' query') :
    AddsPath s u (path ++ path') (query ++ query') where
  going := h'.going
  sameScheme := h'.sameScheme.trans h.sameScheme
  hostname := h'.hostname.trans h.hostname
  port := h'.port.trans h.port
  integerPort := h'.integerPort.trans h.integerPort
  usernameOrHostname := h'.usernameOrHostname.trans h.usernameOrHostname
  portOrPassword := h'.portOrPassword.trans h.portOrPassword
  path := by rw [h'.path, h.path, List.append_assoc]
  query := by rw [h'.query, h.query, List.append_assoc]

/-- A character that only changes the state adds nothing. -/
theorem AddsPath.ofState {s : UrlParser} (h : s.Going) (state : UrlState) :
    AddsPath s { s with state := state } [] [] :=
  ⟨h, rfl, rfl, rfl, rfl, rfl, rfl, (List.append_nil _).symm, (List.append_nil _).symm⟩

/-- Behind a `#` everything is fragment. -/
theorem UrlParser.run_fragment {s : UrlParser} (hgoing : s.Going) (hstate : s.state = .fragment)
    (text : Str) : AddsPath s (s.run text) [] [] := by
  induction text generalizing s with
  | nil => exact .refl hgoing
  | cons ch rest ih =>
      rw [UrlParser.run_cons hgoing]
      have hstep : s.step ch =
          { s with url := { s.url with fragment := s.url.fragment ++ [ch] } } := by
        simp only [UrlParser.step, hstate]
      rw [hstep]
      have hadds : AddsPath s { s with url := { s.url with fragment := s.url.fragment ++ [ch] } }
          [] [] :=
        ⟨hgoing, rfl, rfl, rfl, rfl, rfl, rfl, (List.append_nil _).symm, (List.append_nil _).symm⟩
      exact hadds.trans (ih hgoing hstate)

/-- In a query, each further `?` is left out. -/
theorem UrlParser.run_query {s : UrlParser} (hgoing : s.Going) (hstate : s.state = .query)
    (text : Str) : AddsPath s (s.run text) [] ((upTo '#' text).filter (· ≠ '?')) := by
  induction text generalizing s with
  | nil => exact .refl hgoing
  | cons ch rest ih =>
      rw [UrlParser.run_cons hgoing, upTo]
      by_cases hhash : ch = '#'
      · have hstep : s.step ch = { s with state := .fragment } := by
          simp only [UrlParser.step, hstate, if_pos hhash]
        rw [hstep, if_pos hhash, List.filter_nil]
        have hadds := AddsPath.ofState hgoing .fragment
        exact hadds.trans (UrlParser.run_fragment hadds.going rfl rest)
      rw [if_neg hhash]
      by_cases hmark : ch = '?'
      · have hstep : s.step ch = s := by
          simp only [UrlParser.step, hstate, if_neg hhash, if_pos hmark]
          rw [← hstate]
        rw [hstep, List.filter_cons_of_neg (by simp [hmark])]
        exact ih hgoing hstate
      · have hstep : s.step ch = { s with url := { s.url with query := s.url.query ++ [ch] } } := by
          simp only [UrlParser.step, hstate, if_neg hhash, if_neg hmark]
        rw [hstep, List.filter_cons_of_pos (by simp [hmark])]
        have hadds : AddsPath s { s with url := { s.url with query := s.url.query ++ [ch] } }
            [] [ch] :=
          ⟨hgoing, rfl, rfl, rfl, rfl, rfl, rfl, (List.append_nil _).symm, rfl⟩
        exact hadds.trans (ih hgoing hstate)

/-- The path goes up to the first `?`, the query from there, and both up to the first `#`. -/
theorem UrlParser.run_path {s : UrlParser} (hgoing : s.Going) (hstate : s.state = .path)
    (text : Str) :
    AddsPath s (s.run text) (upTo '?' (upTo '#' text))
      ((behind '?' (upTo '#' text)).filter (· ≠ '?')) := by
  induction text generalizing s with
  | nil => exact .refl hgoing
  | cons ch rest ih =>
      rw [UrlParser.run_cons hgoing, upTo.eq_2 '#']
      by_cases hhash : ch = '#'
      · have hstep : s.step ch = { s with state := .fragment } := by
          simp only [UrlParser.step, hstate, if_pos hhash]
        rw [hstep, if_pos hhash]
        have hadds := AddsPath.ofState hgoing .fragment
        exact hadds.trans (UrlParser.run_fragment hadds.going rfl rest)
      rw [if_neg hhash, upTo, behind]
      by_cases hmark : ch = '?'
      · have hstep : s.step ch = { s with state := .query } := by
          simp only [UrlParser.step, hstate, if_neg hhash, if_pos hmark]
        rw [hstep, if_pos hmark, if_pos hmark]
        have hadds := AddsPath.ofState hgoing .query
        exact hadds.trans (UrlParser.run_query hadds.going rfl rest)
      · have hstep : s.step ch = { s with url := { s.url with path := s.url.path ++ [ch] } } := by
          simp only [UrlParser.step, hstate, if_neg hhash, if_neg hmark]
        rw [hstep, if_neg hmark, if_neg hmark]
        have hadds : AddsPath s { s with url := { s.url with path := s.url.path ++ [ch] } }
            [ch] [] :=
          ⟨hgoing, rfl, rfl, rfl, rfl, rfl, rfl, rfl, (List.append_nil _).symm⟩
        exact hadds.trans (ih hgoing hstate)

/-! ## The URL -/

/-- The schemes of the client. -/
def IsHttpScheme (scheme : Str) : Prop := scheme = str "http" ∨ scheme = str "https"

theorem UrlParser.run_scheme {scheme : Str} (h : IsHttpScheme scheme) (rest : Str) :
    UrlParser.start.run (scheme ++ str "://" ++ rest) =
      (UrlParser.inAuthority scheme .usernameOrHostname [] [] [] [] []).run rest := by
  rcases h with rfl | rfl
  · rfl
  · rfl

/-- The path and the query of a text whose authority ends in a `/`. -/
def pathAndQuery (rest : Str) : Str × Str :=
  (upTo '?' (upTo '#' (behind '/' rest)),
    (behind '?' (upTo '#' (behind '/' rest))).filter (· ≠ '?'))

/-- **A text behind `scheme://`**, in two parts: the authority, and behind a `/` the path. -/
theorem UrlParser.run_rest {scheme rest : Str} {s : UrlParser}
    (hstart : ReadsAuthority scheme [] s) (hgoing : (s.run rest).Going) :
    ('/' ∉ rest → ReadsAuthority scheme rest (s.run rest)) ∧
    ('/' ∈ rest → ∃ t, BeginsPath scheme (upTo '/' rest) t ∧
      AddsPath t (s.run rest) (pathAndQuery rest).1 (pathAndQuery rest).2) := by
  constructor
  · intro hslash
    exact hstart.run hslash hgoing
  · intro hslash
    rw [← upTo_behind hslash, UrlParser.run_append] at hgoing
    have hauthority := UrlParser.going_of_run hgoing
    rw [UrlParser.run_cons hauthority] at hgoing
    -- the `/` is one step, from the end of the authority to the beginning of the path
    have hbegins := (hstart.run (not_mem_upTo '/' rest) hauthority).slash
      (UrlParser.going_of_run hgoing)
    refine ⟨_, hbegins, ?_⟩
    have hadds := UrlParser.run_path hbegins.going hbegins.state (behind '/' rest)
    rw [← UrlParser.run_cons hauthority, ← UrlParser.run_append, upTo_behind hslash] at hadds
    exact hadds

/-- A URL that parses, from the variables at the end of the loop. -/
theorem parseUrl_run {ndebug : Bool} {text : Str} {url : HttpUrl}
    (h : parseUrl ndebug text = some url) (hvalid : url.valid = true) :
    (UrlParser.start.run text).Going ∧
      url.url = { (UrlParser.start.run text).url with
        hostname := (UrlParser.start.run text).resultHost } := by
  unfold parseUrl at h
  simp only at h
  by_cases habort : (UrlParser.start.run text).aborted = true
  · rw [if_pos habort] at h
    cases h
  rw [if_neg habort] at h
  split_ifs at h with hassert hhost
  · cases h
    refine ⟨⟨hvalid, Bool.eq_false_iff.2 habort⟩, ?_⟩
    simp only [UrlParser.resultHost]
    rw [if_pos hhost]
  · cases h
    refine ⟨⟨hvalid, Bool.eq_false_iff.2 habort⟩, ?_⟩
    simp only [UrlParser.resultHost]
    rw [if_neg hhost]

/-- The host that is read in a text behind `scheme://`. -/
def hostRead (rest : Str) : Str :=
  if '/' ∈ rest then hostOf (upTo '/' rest) else openHost rest

/-- The port that is read in a text behind `scheme://`: only a `/` ends a port. -/
def portRead (rest : Str) : Str := if '/' ∈ rest then portOf (upTo '/' rest) else []

/-- The host and the port of a text that brings the parser to this authority. -/
theorem parseUrl_target_of_run {ndebug : Bool} {text scheme rest : Str} {url : HttpUrl}
    (hrun : UrlParser.start.run text =
      (UrlParser.inAuthority scheme .usernameOrHostname [] [] [] [] []).run rest)
    (h : parseUrl ndebug text = some url) (hvalid : url.valid = true) :
    url.url.scheme = scheme ∧ url.url.hostname = hostRead rest ∧ url.url.port = portRead rest ∧
      url.url.integerPort = atoiPort (portRead rest) ∧
      ∀ ch ∈ portRead rest, ch.isDigit = true := by
  obtain ⟨hgoing, hurl⟩ := parseUrl_run h hvalid
  rw [hrun] at hgoing hurl
  obtain ⟨hno, hyes⟩ := UrlParser.run_rest (.name .nil) hgoing
  rw [hurl]
  simp only [hostRead, portRead]
  by_cases hslash : '/' ∈ rest
  · obtain ⟨t, hbegins, hadds⟩ := hyes hslash
    have hresult := congrArg List.isEmpty hadds.usernameOrHostname
    rw [hbegins.usernameOrHostname] at hresult
    simp only [if_pos hslash, UrlParser.resultHost, hresult, List.isEmpty_nil, if_true,
      hadds.sameScheme, hbegins.sameScheme, hadds.hostname, hbegins.hostname, hadds.port,
      hbegins.port, hadds.integerPort, hbegins.integerPort, true_and]
    exact hbegins.digits
  · obtain ⟨hhost, hsame, hport, hinteger⟩ := (hno hslash).end
    rw [if_neg hslash, if_neg hslash]
    exact ⟨hsame, hhost, hport, hinteger, by simp⟩

/-- **The host and the port of a URL**, as its text behind `scheme://` says. -/
theorem parseUrl_target {ndebug : Bool} {scheme rest : Str} {url : HttpUrl}
    (hscheme : IsHttpScheme scheme) (h : parseUrl ndebug (scheme ++ str "://" ++ rest) = some url)
    (hvalid : url.valid = true) :
    url.url.scheme = scheme ∧ url.url.hostname = hostRead rest ∧ url.url.port = portRead rest ∧
      url.url.integerPort = atoiPort (portRead rest) ∧
      ∀ ch ∈ portRead rest, ch.isDigit = true :=
  parseUrl_target_of_run (UrlParser.run_scheme hscheme rest) h hvalid

/-- The path and the query of a text that brings the parser to this authority. -/
theorem parseUrl_path_of_run {ndebug : Bool} {text scheme rest : Str} {url : HttpUrl}
    (hrun : UrlParser.start.run text =
      (UrlParser.inAuthority scheme .usernameOrHostname [] [] [] [] []).run rest)
    (h : parseUrl ndebug text = some url) (hvalid : url.valid = true) :
    url.url.path = '/' :: (pathAndQuery rest).1 ∧ url.url.query = (pathAndQuery rest).2 := by
  obtain ⟨hgoing, hurl⟩ := parseUrl_run h hvalid
  rw [hrun] at hgoing hurl
  obtain ⟨hno, hyes⟩ := UrlParser.run_rest (.name .nil) hgoing
  rw [hurl]
  by_cases hslash : '/' ∈ rest
  · obtain ⟨t, hbegins, hadds⟩ := hyes hslash
    simp only [hadds.path, hadds.query, hbegins.path, hbegins.query, List.singleton_append,
      List.nil_append, and_self]
  -- a text that ends with its authority has the path of the start
  · rw [pathAndQuery, behind_of_not_mem hslash]
    exact (hno hslash).path

end Ssgx.Http
