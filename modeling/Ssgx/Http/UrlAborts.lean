import Ssgx.Http.UrlText

/-!
# Where the URL parser does not return

`parse_` aborts at the first character behind a bracket that opens the host behind user information,
and its assertion fails where a port is still open at the end: the text ends in the port, or a
character is refused there. `OpensAddress` and `BreaksInPort` describe these texts, and
`parse_returns_iff` says that the parser returns for all others.
-/

set_option autoImplicit false

namespace Ssgx.Http

open Ssgx.Support

/-! ## The texts -/

/-- A text of the characters that the parser reads as a password. -/
def PasswordChars (text : Str) : Prop := ∀ ch ∈ text, (isAlnum ch || ch = '%') = true

/-- User information that the parser reads: a name, or a name and a password that is not all
digits. -/
inductive UserInfo : Str → Prop where
  | name {name : Str} (chars : NameChars name) : UserInfo name
  | password {name password : Str} (chars : NameChars name) (letters : PasswordChars password)
      (other : ∃ ch ∈ password, ch.isDigit = false) : UserInfo (name ++ ':' :: password)

/-- User information, a bracket, and a character behind it. -/
def OpensAddress (rest : Str) : Prop :=
  ∃ info ch tail, UserInfo info ∧ rest = info ++ '@' :: '[' :: ch :: tail

/-- A host with digits of a port, and behind them the end of the text or a character that neither
goes on with the port nor ends it. Without user information in front the port may turn out to be a
password. -/
inductive BreaksInPort : Str → Prop where
  | bare {name digits tail : Str} (chars : NameChars name)
      (all : ∀ ch ∈ digits, ch.isDigit = true) (nonempty : digits ≠ [])
      (breaks : ∀ ch ∈ tail.head?, (isAlnum ch || ch = '%') = false ∧ ch ≠ '/') :
      BreaksInPort (name ++ ':' :: (digits ++ tail))
  | behindInfo {info name digits tail : Str} (user : UserInfo info) (chars : NameChars name)
      (all : ∀ ch ∈ digits, ch.isDigit = true) (nonempty : digits ≠ [])
      (breaks : ∀ ch ∈ tail.head?, ch.isDigit = false ∧ ch ≠ '/') :
      BreaksInPort (info ++ '@' :: (name ++ ':' :: (digits ++ tail)))

/-! ## Reading user information -/

/-- The variables of `parse_` at the beginning of an authority. -/
def UrlParser.atAuthority (scheme : Str) : UrlParser :=
  .inAuthority scheme .usernameOrHostname [] [] [] [] []

theorem UrlParser.going_inAuthority (scheme : Str) (state : UrlState)
    (username password hostname usernameOrHostname portOrPassword : Str) :
    (UrlParser.inAuthority scheme state username password hostname usernameOrHostname
      portOrPassword).Going := ⟨rfl, rfl⟩

theorem UrlParser.going_atAuthority (scheme : Str) : (UrlParser.atAuthority scheme).Going :=
  ⟨rfl, rfl⟩

theorem run_name (scheme : Str) {name : Str} (chars : NameChars name) (rest : Str) :
    (UrlParser.atAuthority scheme).run (name ++ rest) =
      (UrlParser.inAuthority scheme .usernameOrHostname [] [] [] name []).run rest := by
  refine UrlParser.run_collect
    (fun front => .inAuthority scheme .usernameOrHostname [] [] [] front [])
    (fun _ => UrlParser.going_inAuthority _ _ _ _ _ _ _) (fun front ch hch => ?_) [] rest
  simp only [UrlParser.step, UrlParser.inAuthority, if_pos (chars ch hch)]

theorem run_bareDigits (scheme name : Str) {digits : Str} (all : ∀ ch ∈ digits, ch.isDigit = true)
    (rest : Str) :
    (UrlParser.inAuthority scheme .portOrPassword [] [] [] name []).run (digits ++ rest) =
      (UrlParser.inAuthority scheme .portOrPassword [] [] [] name digits).run rest := by
  refine UrlParser.run_collect
    (fun front => .inAuthority scheme .portOrPassword [] [] [] name front)
    (fun _ => UrlParser.going_inAuthority _ _ _ _ _ _ _) (fun front ch hch => ?_) [] rest
  simp only [UrlParser.step, UrlParser.inAuthority, if_pos (all ch hch)]

theorem run_password (scheme name front : Str) {password : Str} (letters : PasswordChars password)
    (rest : Str) :
    (UrlParser.inAuthority scheme .password name front [] [] []).run (password ++ rest) =
      (UrlParser.inAuthority scheme .password name (front ++ password) [] [] []).run rest := by
  refine UrlParser.run_collect
    (fun front => .inAuthority scheme .password name front [] [] [])
    (fun _ => UrlParser.going_inAuthority _ _ _ _ _ _ _) (fun front ch hch => ?_) front rest
  simp only [UrlParser.step, UrlParser.inAuthority, if_pos (letters ch hch)]

theorem run_infoHost (scheme username password : Str) {name : Str} (chars : NameChars name)
    (rest : Str) :
    (UrlParser.inAuthority scheme .hostname username password [] [] []).run (name ++ rest) =
      (UrlParser.inAuthority scheme .hostname username password name [] []).run rest := by
  refine UrlParser.run_collect
    (fun front => .inAuthority scheme .hostname username password front [] [])
    (fun _ => UrlParser.going_inAuthority _ _ _ _ _ _ _) (fun front ch hch => ?_) [] rest
  have hbracket : ¬ (ch = '[' && front.isEmpty) = true := by
    rw [Bool.and_eq_true, decide_eq_true_eq]
    rintro ⟨rfl, -⟩
    exact chars.noBracket hch
  simp only [UrlParser.step, UrlParser.inAuthority, if_neg hbracket, if_pos (chars ch hch)]

theorem run_infoDigits (scheme username password name : Str) {digits : Str}
    (all : ∀ ch ∈ digits, ch.isDigit = true) (rest : Str) :
    (UrlParser.inAuthority scheme .port username password name [] []).run (digits ++ rest) =
      (UrlParser.inAuthority scheme .port username password name [] digits).run rest := by
  refine UrlParser.run_collect
    (fun front => .inAuthority scheme .port username password name [] front)
    (fun _ => UrlParser.going_inAuthority _ _ _ _ _ _ _) (fun front ch hch => ?_) [] rest
  simp only [UrlParser.step, UrlParser.inAuthority, if_pos (all ch hch)]

/-- The digits in front of the first other character of a password. -/
theorem exists_firstOther {password : Str} (other : ∃ ch ∈ password, ch.isDigit = false) :
    ∃ digits ch letters, password = digits ++ ch :: letters ∧
      (∀ c ∈ digits, c.isDigit = true) ∧ ch.isDigit = false := by
  induction password with
  | nil =>
      obtain ⟨ch, hmem, -⟩ := other
      cases hmem
  | cons c password ih =>
      cases hc : c.isDigit with
      | false => exact ⟨[], c, password, rfl, by simp, hc⟩
      | true =>
          have hother : ∃ ch ∈ password, ch.isDigit = false := by
            obtain ⟨ch, hmem, hch⟩ := other
            rcases List.mem_cons.1 hmem with rfl | hmem
            · rw [hc] at hch
              cases hch
            · exact ⟨ch, hmem, hch⟩
          obtain ⟨digits, ch, letters, rfl, hdigits, hch⟩ := ih hother
          refine ⟨c :: digits, ch, letters, rfl, ?_, hch⟩
          intro d hmem
          rcases List.mem_cons.1 hmem with rfl | hmem
          · exact hc
          · exact hdigits d hmem

/-- **User information is read.** Behind it the parser begins a host. -/
theorem UserInfo.run {info : Str} (h : UserInfo info) (scheme : Str) :
    ∃ username password, ∀ rest,
      (UrlParser.atAuthority scheme).run (info ++ '@' :: rest) =
        (UrlParser.inAuthority scheme .hostname username password [] [] []).run rest := by
  cases h with
  | name chars =>
      refine ⟨info, [], fun rest => ?_⟩
      rw [run_name scheme chars, UrlParser.run_cons (UrlParser.going_inAuthority _ _ _ _ _ _ _)]
      rfl
  | @password name password chars letters other =>
      refine ⟨name, password, fun rest => ?_⟩
      obtain ⟨digits, ch, front, rfl, hdigits, hch⟩ := exists_firstOther other
      have hletter : (isAlnum ch || ch = '%') = true := letters ch (by simp)
      have hslash : ch ≠ '/' := by
        rintro rfl
        exact absurd hletter (by decide)
      rw [List.append_assoc, List.cons_append, run_name scheme chars,
        UrlParser.run_cons (UrlParser.going_inAuthority _ _ _ _ _ _ _)]
      show (UrlParser.inAuthority scheme .portOrPassword [] [] [] name []).run _ = _
      rw [List.append_assoc, List.cons_append, run_bareDigits scheme name hdigits,
        UrlParser.run_cons (UrlParser.going_inAuthority _ _ _ _ _ _ _)]
      -- the first character that is no digit makes a password of the digits
      have hstep : (UrlParser.inAuthority scheme .portOrPassword [] [] [] name digits).step ch =
          .inAuthority scheme .password name (digits ++ [ch]) [] [] [] := by
        simp only [UrlParser.step, UrlParser.inAuthority]
        rw [if_neg (by rw [hch]; decide), if_neg hslash, if_pos hletter]
      rw [hstep, run_password scheme name _ fun c hc => letters c (by simp [hc]),
        UrlParser.run_cons (UrlParser.going_inAuthority _ _ _ _ _ _ _), List.append_assoc]
      rfl

/-- The text that brings `parse_` to this state before an `@`. -/
inductive ReadsInfo (scheme : Str) : Str → UrlParser → Prop where
  | name {name : Str} (chars : NameChars name) :
      ReadsInfo scheme name (.inAuthority scheme .usernameOrHostname [] [] [] name [])
  | digits {name digits : Str} (chars : NameChars name)
      (all : ∀ ch ∈ digits, ch.isDigit = true) :
      ReadsInfo scheme (name ++ ':' :: digits)
        (.inAuthority scheme .portOrPassword [] [] [] name digits)
  | password {name password : Str} (chars : NameChars name) (letters : PasswordChars password)
      (other : ∃ ch ∈ password, ch.isDigit = false) :
      ReadsInfo scheme (name ++ ':' :: password)
        (.inAuthority scheme .password name password [] [] [])

theorem PasswordChars.concat {text : Str} {ch : Char} (h : PasswordChars text)
    (hch : (isAlnum ch || ch = '%') = true) : PasswordChars (text ++ [ch]) := by
  intro c hmem
  rcases List.mem_append.1 hmem with hmem | hmem
  · exact h c hmem
  · rw [List.mem_singleton.1 hmem]
    exact hch

theorem isAlnum_of_isDigit {ch : Char} (h : ch.isDigit = true) : isAlnum ch = true := by
  simp only [isAlnum, Char.isAlphanum, h, Bool.or_true]

theorem PasswordChars.of_digits {digits : Str} (h : ∀ ch ∈ digits, ch.isDigit = true) :
    PasswordChars digits := by
  intro ch hmem
  rw [isAlnum_of_isDigit (h ch hmem), Bool.true_or]

/-- One character before an `@` and before a `/`. -/
theorem ReadsInfo.step {scheme info : Str} {s : UrlParser} {ch : Char}
    (h : ReadsInfo scheme info s) (hslash : ch ≠ '/') (hat : ch ≠ '@')
    (hgoing : (s.step ch).Going) : ReadsInfo scheme (info ++ [ch]) (s.step ch) := by
  have hvalid := hgoing.1
  cases h with
  | name chars =>
      simp only [UrlParser.step, UrlParser.inAuthority] at hvalid ⊢
      by_cases hname : (isUnreserved ch || ch = '%') = true
      · rw [if_pos hname]
        exact .name (chars.concat hname)
      rw [if_neg hname] at hvalid ⊢
      by_cases hcolon : ch = ':'
      · rw [if_pos hcolon, hcolon]
        exact .digits chars (by simp)
      · rw [if_neg hcolon, if_neg hat, if_neg hslash] at hvalid
        cases hvalid
  | @digits name digits chars all =>
      simp only [UrlParser.step, UrlParser.inAuthority] at hvalid ⊢
      rw [List.append_assoc, List.cons_append]
      by_cases hdigit : ch.isDigit = true
      · rw [if_pos hdigit]
        exact .digits chars (all_digits_concat all hdigit)
      rw [if_neg hdigit, if_neg hslash] at hvalid ⊢
      by_cases hpassword : (isAlnum ch || ch = '%') = true
      · rw [if_pos hpassword]
        exact .password chars ((PasswordChars.of_digits all).concat hpassword)
          ⟨ch, by simp, Bool.eq_false_iff.2 hdigit⟩
      · rw [if_neg hpassword] at hvalid
        cases hvalid
  | @password name password chars letters other =>
      simp only [UrlParser.step, UrlParser.inAuthority] at hvalid ⊢
      by_cases hpassword : (isAlnum ch || ch = '%') = true
      · rw [if_pos hpassword, List.append_assoc, List.cons_append]
        obtain ⟨c, hmem, hc⟩ := other
        exact .password chars (letters.concat hpassword) ⟨c, by simp [hmem], hc⟩
      · rw [if_neg hpassword, if_neg hat] at hvalid
        cases hvalid

theorem ReadsInfo.run {scheme front text : Str} {s : UrlParser} (h : ReadsInfo scheme front s)
    (hslash : '/' ∉ text) (hat : '@' ∉ text) (hgoing : (s.run text).Going) :
    ReadsInfo scheme (front ++ text) (s.run text) := by
  have htext : ∀ ch ∈ text, ch ≠ '/' ∧ ch ≠ '@' := fun ch hmem =>
    ⟨fun heq => hslash (heq ▸ hmem), fun heq => hat (heq ▸ hmem)⟩
  refine UrlParser.run_keeps (fun _ _ _ hreads hne hstep => ?_) h htext hgoing
  exact ReadsInfo.step hreads hne.1 hne.2 hstep

/-- What is in front of an `@` that the parser goes over is user information. -/
theorem userInfo_of_going {scheme info rest : Str} (hslash : '/' ∉ info) (hat : '@' ∉ info)
    (hgoing : ((UrlParser.atAuthority scheme).run (info ++ '@' :: rest)).Going) :
    UserInfo info := by
  rw [UrlParser.run_append] at hgoing
  have hinfo := UrlParser.going_of_run hgoing
  rw [UrlParser.run_cons hinfo] at hgoing
  have hstep := (UrlParser.going_of_run hgoing).1
  have hreads : ReadsInfo scheme info ((UrlParser.atAuthority scheme).run info) :=
    (ReadsInfo.name NameChars.nil).run hslash hat hinfo
  generalize (UrlParser.atAuthority scheme).run info = s at hreads hstep
  cases hreads with
  | name chars => exact .name chars
  -- an `@` behind digits is refused
  | digits chars all => cases hstep
  | password chars letters other => exact .password chars letters other

/-! ## Where the parser stops -/

/-- The parser stops nowhere behind the `/` of a path. -/
theorem noSlash_of_stops {scheme front tail : Str}
    (hfront : ((UrlParser.atAuthority scheme).run front).Going)
    (hstop : ¬ ((UrlParser.atAuthority scheme).run (front ++ tail)).Going) : '/' ∉ front := by
  intro hslash
  rw [← upTo_behind hslash] at hfront
  rw [UrlParser.run_append] at hfront
  have hauthority := UrlParser.going_of_run hfront
  rw [UrlParser.run_cons hauthority] at hfront
  have hreads : ReadsAuthority scheme (upTo '/' front)
      ((UrlParser.atAuthority scheme).run (upTo '/' front)) :=
    (ReadsAuthority.name NameChars.nil).run (not_mem_upTo '/' front) hauthority
  have hbegins := hreads.slash (UrlParser.going_of_run hfront)
  have hpath := UrlParser.run_path hbegins.going hbegins.state (behind '/' front ++ tail)
  rw [← upTo_behind hslash, List.append_assoc, UrlParser.run_append, List.cons_append,
    UrlParser.run_cons hauthority] at hstop
  exact hstop hpath.going

/-- **Where the parser aborts.** -/
theorem aborted_iff (scheme rest : Str) :
    ((UrlParser.atAuthority scheme).run rest).aborted = true ↔ OpensAddress rest := by
  constructor
  · intro habort
    have hstop : ¬ ((UrlParser.atAuthority scheme).run rest).Going := by
      intro hgoing
      rw [hgoing.2] at habort
      cases habort
    obtain ⟨front, ch, tail, rfl, hfront, hrun, hend⟩ :=
      UrlParser.run_stops (UrlParser.going_atAuthority scheme) hstop
    have hslash := noSlash_of_stops hfront hstop
    rcases UrlParser.step_stops hfront hend with ⟨hstate, -⟩ | ⟨-, hreject⟩
    · have hreads : ReadsAuthority scheme front ((UrlParser.atAuthority scheme).run front) :=
        (ReadsAuthority.name NameChars.nil).run hslash hfront
      generalize hs : (UrlParser.atAuthority scheme).run front = s at hreads hstate
      cases hreads with
      | @bracket info username password noInfo =>
          refine ⟨info, ch, tail, ?_, by simp⟩
          have hgoing : ((UrlParser.atAuthority scheme).run (info ++ '@' :: ['['])).Going := hfront
          exact userInfo_of_going (fun hmem => hslash (List.mem_append_left _ hmem)) noInfo hgoing
      | _ => cases hstate
    · rw [hrun, hreject] at habort
      rw [show ((UrlParser.atAuthority scheme).run front).reject.aborted = _ from hfront.2]
        at habort
      cases habort
  · rintro ⟨info, ch, tail, huser, rfl⟩
    obtain ⟨username, password, hinfo⟩ := huser.run scheme
    rw [hinfo, UrlParser.run_cons (UrlParser.going_inAuthority _ _ _ _ _ _ _),
      UrlParser.run_cons ⟨rfl, rfl⟩,
      UrlParser.run_of_not_going fun hgoing => Bool.noConfusion hgoing.2]
    rfl

/-- The characters that are refused in a port that may still be a password. -/
theorem portOrPassword_stops_iff (scheme name digits : Str) (ch : Char) :
    ¬ ((UrlParser.inAuthority scheme .portOrPassword [] [] [] name digits).step ch).Going ↔
      (isAlnum ch || ch = '%') = false ∧ ch ≠ '/' := by
  simp only [UrlParser.step, UrlParser.inAuthority]
  by_cases hdigit : ch.isDigit = true
  · rw [if_pos hdigit, isAlnum_of_isDigit hdigit]
    exact iff_of_false (fun hstop => hstop ⟨rfl, rfl⟩) fun h => by cases h.1
  rw [if_neg hdigit]
  by_cases hslash : ch = '/'
  · rw [if_pos hslash]
    exact iff_of_false (fun hstop => hstop ⟨rfl, rfl⟩) fun h => h.2 hslash
  rw [if_neg hslash]
  by_cases hpassword : (isAlnum ch || ch = '%') = true
  · rw [if_pos hpassword, hpassword]
    exact iff_of_false (fun hstop => hstop ⟨rfl, rfl⟩) fun h => by cases h.1
  · rw [if_neg hpassword]
    exact iff_of_true (UrlParser.not_going_reject _) ⟨Bool.eq_false_iff.2 hpassword, hslash⟩

/-- The characters that are refused in a port behind user information. -/
theorem port_stops_iff (scheme username password name digits : Str) (ch : Char) :
    ¬ ((UrlParser.inAuthority scheme .port username password name [] digits).step ch).Going ↔
      ch.isDigit = false ∧ ch ≠ '/' := by
  simp only [UrlParser.step, UrlParser.inAuthority]
  by_cases hdigit : ch.isDigit = true
  · rw [if_pos hdigit, hdigit]
    exact iff_of_false (fun hstop => hstop ⟨rfl, rfl⟩) fun h => by cases h.1
  rw [if_neg hdigit]
  by_cases hslash : ch = '/'
  · rw [if_pos hslash]
    exact iff_of_false (fun hstop => hstop ⟨rfl, rfl⟩) fun h => h.2 hslash
  · rw [if_neg hslash]
    exact iff_of_true (UrlParser.not_going_reject _) ⟨Bool.eq_false_iff.2 hdigit, hslash⟩

/-- A port that is open behind a text without `/`, and what comes behind it. -/
theorem breaksInPort_of_open {scheme front tail : Str} {s : UrlParser}
    (hreads : ReadsAuthority scheme front s)
    (hinfo : ∀ info rest, front = info ++ '@' :: rest → '@' ∉ info → UserInfo info)
    (hopen : s.portOrPassword ≠ []) (hbreaks : ∀ ch ∈ tail.head?, ¬ (s.step ch).Going) :
    BreaksInPort (front ++ tail) := by
  cases hreads with
  | @digits name digits chars all =>
      rw [List.append_assoc, List.cons_append]
      refine .bare chars all hopen fun ch hch => ?_
      exact (portOrPassword_stops_iff scheme name digits ch).1 (hbreaks ch hch)
  | @port info username password name digits noInfo chars all =>
      have huser := hinfo info (name ++ ':' :: digits) rfl noInfo
      rw [List.append_assoc, List.cons_append, List.append_assoc, List.cons_append]
      refine .behindInfo huser chars all hopen fun ch hch => ?_
      exact (port_stops_iff scheme username password name digits ch).1 (hbreaks ch hch)
  | _ => exact absurd rfl hopen

/-- What is open stays open, where the text ends or its next character is refused. -/
theorem UrlParser.portOrPassword_run_of_stops {s : UrlParser} {tail : Str} (h : s.Going)
    (hstate : s.state ≠ .ipv6Hostname) (hstops : ∀ ch ∈ tail.head?, ¬ (s.step ch).Going) :
    (s.run tail).portOrPassword = s.portOrPassword := by
  cases tail with
  | nil => rfl
  | cons ch tail =>
      rcases UrlParser.step_stops h (hstops ch rfl) with ⟨hipv6, -⟩ | ⟨-, hreject⟩
      · exact absurd hipv6 hstate
      · rw [UrlParser.run_cons_of_reject h hreject]
        rfl

/-- A port that is open at the end is open where the text ends, or where a character is refused. -/
theorem breaksInPort_of_portOpen {scheme rest : Str}
    (hreturns : ((UrlParser.atAuthority scheme).run rest).aborted = false)
    (hopen : ((UrlParser.atAuthority scheme).run rest).portOrPassword ≠ []) :
    BreaksInPort rest := by
  by_cases hgoing : ((UrlParser.atAuthority scheme).run rest).Going
  · obtain ⟨hno, hyes⟩ := UrlParser.run_rest (.name .nil) hgoing
    by_cases hslash : '/' ∈ rest
    · obtain ⟨t, hbegins, hadds⟩ := hyes hslash
      exact absurd (hadds.portOrPassword.trans hbegins.portOrPassword) hopen
    · rw [← List.append_nil rest]
      refine breaksInPort_of_open (hno hslash) (fun info back heq hat => ?_) hopen (by simp)
      rw [heq] at hgoing hslash
      exact userInfo_of_going (fun hmem => hslash (List.mem_append_left _ hmem)) hat hgoing
  · obtain ⟨front, ch, tail, rfl, hfront, hrun, hend⟩ :=
      UrlParser.run_stops (UrlParser.going_atAuthority scheme) hgoing
    have hslash := noSlash_of_stops hfront hgoing
    rw [hrun] at hopen hreturns
    rcases UrlParser.step_stops hfront hend with ⟨-, habort⟩ | ⟨-, hreject⟩
    · rw [habort] at hreturns
      cases hreturns
    · have hreads : ReadsAuthority scheme front ((UrlParser.atAuthority scheme).run front) :=
        (ReadsAuthority.name NameChars.nil).run hslash hfront
      rw [hreject] at hopen
      refine breaksInPort_of_open hreads (fun info back heq hat => ?_) hopen ?_
      · rw [heq] at hfront hslash
        exact userInfo_of_going (fun hmem => hslash (List.mem_append_left _ hmem)) hat hfront
      · rintro c ⟨⟩
        exact hend

/-- A text that breaks off in a port leaves it open. -/
theorem BreaksInPort.portOpen {rest : Str} (h : BreaksInPort rest) (scheme : Str) :
    ((UrlParser.atAuthority scheme).run rest).portOrPassword ≠ [] := by
  cases h with
  | @bare name digits tail chars all nonempty breaks =>
      rw [run_name scheme chars, UrlParser.run_cons (UrlParser.going_inAuthority _ _ _ _ _ _ _)]
      show UrlParser.portOrPassword
        ((UrlParser.inAuthority scheme .portOrPassword [] [] [] name []).run _) ≠ []
      have hkeeps := UrlParser.portOrPassword_run_of_stops
        (UrlParser.going_inAuthority scheme .portOrPassword [] [] [] name digits)
        (fun h => by cases h)
        fun ch hch => (portOrPassword_stops_iff scheme name digits ch).2 (breaks ch hch)
      rw [run_bareDigits scheme name all, hkeeps]
      exact nonempty
  | @behindInfo info name digits tail user chars all nonempty breaks =>
      obtain ⟨username, password, hinfo⟩ := user.run scheme
      have hcolon : (UrlParser.inAuthority scheme .hostname username password name [] []).step
          ':' = .inAuthority scheme .port username password name [] [] := by
        simp [UrlParser.step, UrlParser.inAuthority, isUnreserved, isAlnum]
      have hkeeps := UrlParser.portOrPassword_run_of_stops
        (UrlParser.going_inAuthority scheme .port username password name [] digits)
        (fun h => by cases h)
        fun ch hch => (port_stops_iff scheme username password name digits ch).2 (breaks ch hch)
      rw [hinfo, run_infoHost scheme username password chars,
        UrlParser.run_cons (UrlParser.going_inAuthority _ _ _ _ _ _ _), hcolon,
        run_infoDigits scheme username password name all, hkeeps]
      exact nonempty

/-- **Where a port is open at the end.** -/
theorem portOpen_iff {scheme rest : Str}
    (hreturns : ((UrlParser.atAuthority scheme).run rest).aborted = false) :
    ((UrlParser.atAuthority scheme).run rest).portOrPassword ≠ [] ↔ BreaksInPort rest :=
  ⟨breaksInPort_of_portOpen hreturns, fun hbreaks => hbreaks.portOpen scheme⟩

/-! ## When the parser returns -/

theorem parseUrl_isSome_iff (ndebug : Bool) (text : Str) :
    (∃ url, parseUrl ndebug text = some url) ↔
      (UrlParser.start.run text).aborted = false ∧
        (ndebug = false → (UrlParser.start.run text).portOrPassword = []) := by
  simp only [parseUrl]
  by_cases habort : (UrlParser.start.run text).aborted = true
  · rw [if_pos habort]
    simp [habort]
  rw [if_neg habort]
  by_cases hassert : (!ndebug && !(UrlParser.start.run text).portOrPassword.isEmpty) = true
  · rw [if_pos hassert]
    simp only [Bool.and_eq_true, Bool.not_eq_true', List.isEmpty_eq_false_iff] at hassert
    simp [hassert.1, hassert.2]
  · rw [if_neg hassert]
    refine iff_of_true ⟨_, rfl⟩ ⟨Bool.eq_false_iff.2 habort, ?_⟩
    rintro rfl
    simpa using hassert

theorem atAuthority_returns_iff (ndebug : Bool) (scheme rest : Str) :
    (((UrlParser.atAuthority scheme).run rest).aborted = false ∧
      (ndebug = false → ((UrlParser.atAuthority scheme).run rest).portOrPassword = [])) ↔
      ¬ OpensAddress rest ∧ (ndebug = false → ¬ BreaksInPort rest) := by
  rw [← aborted_iff scheme]
  cases habort : ((UrlParser.atAuthority scheme).run rest).aborted with
  | true => simp
  | false =>
      rw [← portOpen_iff habort]
      simp

/-- **When `HttpUrl::parse` returns.** It returns, with the URL marked valid or invalid, exactly
where the text has no authority that opens an address behind user information, and, in a build with
assertions, none that breaks off in a port. -/
theorem parse_returns_iff (ndebug : Bool) (text : Str) :
    (∃ url, parseUrl ndebug text = some url) ↔
      ¬ (HasAuthority text ∧ OpensAddress (restText text)) ∧
        (ndebug = false → ¬ (HasAuthority text ∧ BreaksInPort (restText text))) := by
  rw [parseUrl_isSome_iff]
  rcases UrlParser.start_run_cases text with ⟨hhas, hrun⟩ | ⟨hno, hnameless, -⟩
  · have hrest : UrlParser.start.run text =
        (UrlParser.atAuthority (schemeText text)).run (restText text) := hrun
    rw [hrest, atAuthority_returns_iff]
    simp [hhas]
  · rw [hnameless.aborted, hnameless.portOrPassword]
    simp [hno]

/-- `http://a@[b` is not parsed in any build, and `http://h:80` not in one with assertions. -/
theorem parse_does_not_return :
    ¬ (∀ text, ∃ url, parseUrl true text = some url) ∧
      ¬ ∀ text, ∃ url, parseUrl false text = some url := by
  constructor
  · intro h
    obtain ⟨url, hurl⟩ := h (str "http://a@[b")
    have hnone : parseUrl true (str "http://a@[b") = none := by decide
    rw [hnone] at hurl
    cases hurl
  · intro h
    obtain ⟨url, hurl⟩ := h (str "http://h:80")
    have hnone : parseUrl false (str "http://h:80") = none := by decide
    rw [hnone] at hurl
    cases hurl

end Ssgx.Http
