import Mathlib.Data.List.TakeWhile
import Ssgx.Support.Digits
import Ssgx.Time.Calendar

/-!
# Times as texts

`DateTime`: its constructor from six numbers, its getters, `ToFormatTime` and `FromFormatTime`.

`FromFormatTime` takes six numbers out of a text of 19 characters. It never looks at what stands
between them, `std::stoi` reads more than digits, and the day is compared with 31 only.
`faithful_iff` says which texts come back from `ToFormatTime` all the same, and `inverse_laws` that
every time from 1900 to 9999 comes back.
-/

set_option autoImplicit false

namespace Ssgx.Time

open Ssgx.Support

/-! ## Exceptions -/

/-- The exceptions of the standard library that occur. -/
inductive StdException where
  | invalidArgument (what : String)
  | outOfRange (what : String)
deriving DecidableEq

/-- `what` -/
def StdException.what : StdException → String
  | .invalidArgument what => what
  | .outOfRange what => what

/-- `std::string::substr` -/
def substr (s : Str) (pos n : Nat) : Except StdException Str :=
  if s.length < pos then .error (.outOfRange "basic_string")
  else .ok ((s.drop pos).take n)

/-- `isspace` -/
def isSpace (c : Char) : Bool :=
  c = ' ' || c = '\t' || c = '\n' || c.toNat = 11 || c.toNat = 12 || c = '\r'

/-- The sign that `strtol` accepts, and what is behind it. -/
def takeSign : Str → Bool × Str
  | '-' :: rest => (true, rest)
  | '+' :: rest => (false, rest)
  | rest => (false, rest)

/-- `std::stoi`: blanks in front are skipped and what is behind the digits is ignored. -/
def stoi (s : Str) : Except StdException Int :=
  let (negative, rest) := takeSign (s.dropWhile isSpace)
  let digits := rest.takeWhile Char.isDigit
  if digits = [] then .error (.invalidArgument "stoi: no conversion")
  else
    let n : Int := if negative then -ofDecimal digits else ofDecimal digits
    if n < intMin ∨ intMax < n then .error (.outOfRange "stoi: out of range") else .ok n

/-! ## The class -/

/-- A `DateTime`. -/
structure DateTime where
  timestamp : Int
deriving DecidableEq

/-- The six numbers of a time. -/
structure TimeFields where
  year : Int
  month : Int
  day : Int
  hour : Int
  minute : Int
  second : Int
deriving DecidableEq

/-- The numbers as a `struct tm`. -/
def TimeFields.tm (f : TimeFields) : Tm where
  sec := f.second
  min := f.minute
  hour := f.hour
  mday := f.day
  mon := f.month - 1
  year := f.year - 1900
  -- the constructor leaves these two as they are, and `__tm_to_secs` does not read them
  wday := 0
  yday := 0

namespace DateTime

/-- The constructor from six numbers. -/
def ofFields (f : TimeFields) : Except StdException DateTime :=
  if ¬ f.year ≥ 1900 then .error (.invalidArgument "Invalid num_year!")
  else if ¬ (f.month ≥ 1 ∧ f.month ≤ 12) then .error (.invalidArgument "Invalid num_month!")
  else if ¬ (f.day ≥ 1 ∧ f.day ≤ 31) then .error (.invalidArgument "Invalid num_day!")
  else if ¬ (f.hour ≥ 0 ∧ f.hour ≤ 23) then .error (.invalidArgument "Invalid num_hour!")
  else if ¬ (f.minute ≥ 0 ∧ f.minute ≤ 59) then .error (.invalidArgument "Invalid num_min!")
  else if ¬ (f.second ≥ 0 ∧ f.second ≤ 59) then .error (.invalidArgument "Invalid num_sec!")
  else .ok ⟨tmToSecs f.tm⟩

/-- `GetTimestamp` -/
def getTimestamp (d : DateTime) : Int := d.timestamp

/-- A getter: one number of the `struct tm`, or -1. -/
def getField (field : Tm → Int) (d : DateTime) : Int :=
  match secsToTm d.timestamp with
  | some tm => field tm
  | none => -1

/-- `GetYear` -/
def getYear (d : DateTime) : Int := d.getField fun tm => tm.year + 1900

/-- `GetMonth` -/
def getMonth (d : DateTime) : Int := d.getField fun tm => tm.mon + 1

/-- `GetDay` -/
def getDay (d : DateTime) : Int := d.getField fun tm => tm.mday

/-- `GetHour` -/
def getHour (d : DateTime) : Int := d.getField fun tm => tm.hour

/-- `GetMinute` -/
def getMinute (d : DateTime) : Int := d.getField fun tm => tm.min

/-- `GetSecond` -/
def getSecond (d : DateTime) : Int := d.getField fun tm => tm.sec

/-- `GetDayOfWeek` -/
def getDayOfWeek (d : DateTime) : Int := d.getField fun tm => tm.wday

end DateTime

/-- A number as `strftime` prints it, with zeros in front up to a width that a sign is part of. -/
def zeroPadded (width : Nat) (n : Int) : Str :=
  if n < 0 then '-' :: padded (width - 1) n.natAbs else padded width n.natAbs

/-- Six texts with the separators of the format. -/
def timeText (year month day hour minute second : Str) : Str :=
  year ++ '-' :: (month ++ '-' :: (day ++ ' ' :: (hour ++ ':' :: (minute ++ ':' :: second))))

/-- `strftime` with the format `%Y-%m-%d %H:%M:%S`. -/
def strftime (tm : Tm) : Str :=
  timeText (zeroPadded 4 (tm.year + 1900)) (zeroPadded 2 (tm.mon + 1)) (zeroPadded 2 tm.mday)
    (zeroPadded 2 tm.hour) (zeroPadded 2 tm.min) (zeroPadded 2 tm.sec)

namespace DateTime

/-- `ToFormatTime` -/
def toFormatTime (d : DateTime) : Except StdException Str :=
  match secsToTm d.timestamp with
  | none =>
      .error (.invalidArgument "Unexpected exception: int ret = __secs_to_tm(timestamp_, &t);")
  | some tm => .ok (strftime tm)

/-- The block of `FromFormatTime` under `try`. -/
def parseFields (formattedTime : Str) : Except StdException TimeFields := do
  let year ← substr formattedTime 0 4
  let month ← substr formattedTime 5 2
  let day ← substr formattedTime 8 2
  let hour ← substr formattedTime 11 2
  let minute ← substr formattedTime 14 2
  let second ← substr formattedTime 17 2
  let numYear ← stoi year
  let numMonth ← stoi month
  let numDay ← stoi day
  let numHour ← stoi hour
  let numMin ← stoi minute
  let numSec ← stoi second
  return ⟨numYear, numMonth, numDay, numHour, numMin, numSec⟩

/-- `FromFormatTime` -/
def fromFormatTime (formattedTime : Str) : Except StdException DateTime :=
  if formattedTime.length ≠ 19 then .error (.invalidArgument "Invalid formated time string!")
  else
    match parseFields formattedTime with
    | .error e => .error (.invalidArgument ("Invalid formated time string! Info: " ++ e.what))
    | .ok f => ofFields f

end DateTime

/-! ## What the functions accept -/

/-- The part of a text from a position on. -/
def slice (s : Str) (pos n : Nat) : Str := (s.drop pos).take n

/-- The ranges that the constructor checks. -/
structure TimeFields.InRange (f : TimeFields) : Prop where
  year : 1900 ≤ f.year
  month : 1 ≤ f.month ∧ f.month ≤ 12
  day : 1 ≤ f.day ∧ f.day ≤ 31
  hour : 0 ≤ f.hour ∧ f.hour ≤ 23
  minute : 0 ≤ f.minute ∧ f.minute ≤ 59
  second : 0 ≤ f.second ∧ f.second ≤ 59

/-- `std::stoi` reads the six numbers at their places. -/
structure Reads (s : Str) (f : TimeFields) : Prop where
  year : stoi (slice s 0 4) = .ok f.year
  month : stoi (slice s 5 2) = .ok f.month
  day : stoi (slice s 8 2) = .ok f.day
  hour : stoi (slice s 11 2) = .ok f.hour
  minute : stoi (slice s 14 2) = .ok f.minute
  second : stoi (slice s 17 2) = .ok f.second

/-- A text of 19 characters that has six numbers in their ranges at their places. -/
structure Accepts (s : Str) (f : TimeFields) : Prop where
  length : s.length = 19
  reads : Reads s f
  inRange : f.InRange

namespace DateTime

theorem ofFields_ok_iff {f : TimeFields} {d : DateTime} :
    ofFields f = .ok d ↔ f.InRange ∧ d = ⟨tmToSecs f.tm⟩ := by
  simp only [ofFields]
  split_ifs with hyear hmonth hday hhour hmin hsec
  · constructor
    · intro h
      cases h
      exact ⟨⟨hyear, hmonth, hday, hhour, hmin, hsec⟩, rfl⟩
    · rintro ⟨-, rfl⟩
      rfl
  · exact iff_of_false nofun fun h => hsec h.1.second
  · exact iff_of_false nofun fun h => hmin h.1.minute
  · exact iff_of_false nofun fun h => hhour h.1.hour
  · exact iff_of_false nofun fun h => hday h.1.day
  · exact iff_of_false nofun fun h => hmonth h.1.month
  · exact iff_of_false nofun fun h => hyear h.1.year

theorem ofFields_error {f : TimeFields} {e : StdException} (h : ofFields f = .error e) :
    ∃ what, e = .invalidArgument what := by
  simp only [ofFields] at h
  split_ifs at h <;> cases h <;> exact ⟨_, rfl⟩

theorem bind_ok_iff {α β : Type} {x : Except StdException α} {f : α → Except StdException β}
    {b : β} : x >>= f = .ok b ↔ ∃ a, x = .ok a ∧ f a = .ok b := by
  cases x with
  | ok a => exact ⟨fun h => ⟨a, rfl, h⟩, fun ⟨_, ha, h⟩ => Except.ok.inj ha ▸ h⟩
  | error e => exact ⟨nofun, fun ⟨_, ha, _⟩ => nomatch ha⟩

theorem substr_eq {s : Str} {pos : Nat} (h : pos ≤ s.length) (n : Nat) :
    substr s pos n = .ok (slice s pos n) := if_neg (Nat.not_lt.2 h)

theorem parseFields_ok_iff {s : Str} (hlength : s.length = 19) (f : TimeFields) :
    parseFields s = .ok f ↔ Reads s f := by
  have hsubstr : ∀ pos n, pos ≤ 17 → substr s pos n = .ok (slice s pos n) := fun pos n h =>
    substr_eq (by omega) n
  simp only [parseFields]
  rw [hsubstr 0 4 (by decide), hsubstr 5 2 (by decide), hsubstr 8 2 (by decide),
    hsubstr 11 2 (by decide), hsubstr 14 2 (by decide), hsubstr 17 2 (by decide)]
  show (stoi (slice s 0 4) >>= _) = _ ↔ _
  simp only [bind_ok_iff]
  constructor
  · rintro ⟨year, hyear, month, hmonth, day, hday, hour, hhour, min, hmin, sec, hsec, hf⟩
    cases hf
    exact ⟨hyear, hmonth, hday, hhour, hmin, hsec⟩
  · intro h
    exact ⟨_, h.year, _, h.month, _, h.day, _, h.hour, _, h.minute, _, h.second, rfl⟩

/-- **What `FromFormatTime` accepts.** -/
theorem fromFormatTime_ok_iff {s : Str} {d : DateTime} :
    fromFormatTime s = .ok d ↔ ∃ f, Accepts s f ∧ d = ⟨tmToSecs f.tm⟩ := by
  simp only [fromFormatTime]
  split_ifs with hlength
  · exact iff_of_false (fun h => nomatch h) fun ⟨f, hf, _⟩ => hlength hf.length
  · have hparse := parseFields_ok_iff (not_not.1 hlength)
    split
    · next e herror =>
        refine iff_of_false (fun h => nomatch h) fun ⟨f, hf, _⟩ => ?_
        rw [(hparse f).2 hf.reads] at herror
        cases herror
    · next f hok =>
        rw [ofFields_ok_iff]
        constructor
        · rintro ⟨hrange, hd⟩
          exact ⟨f, ⟨not_not.1 hlength, (hparse f).1 hok, hrange⟩, hd⟩
        · rintro ⟨g, hg, hd⟩
          rw [(hparse g).2 hg.reads] at hok
          cases hok
          exact ⟨hg.inRange, hd⟩

/-- Every other text makes it throw `std::invalid_argument`. -/
theorem fromFormatTime_error {s : Str} {e : StdException} (h : fromFormatTime s = .error e) :
    ∃ what, e = .invalidArgument what := by
  simp only [fromFormatTime] at h
  split at h
  · cases h
    exact ⟨_, rfl⟩
  · split at h
    · cases h
      exact ⟨_, rfl⟩
    · exact ofFields_error h

end DateTime

/-! ## Digits -/

/-- Digits are read as their number. -/
theorem stoi_of_digits {s : Str} (hdigits : AllDigits s) (hne : s ≠ []) (hlength : s.length ≤ 4) :
    stoi s = .ok (ofDecimal s) := by
  obtain ⟨c, rest, rfl⟩ := List.exists_cons_of_ne_nil hne
  have hc : c.isDigit = true := hdigits c List.mem_cons_self
  have hcode := (isDigit_iff c).1 hc
  -- a digit is neither a blank nor a sign
  have hother : ∀ d : Char, d.toNat < 48 → c ≠ d := by
    rintro d hd rfl
    omega
  have hspace : isSpace c = false := by
    have h11 : c.toNat ≠ 11 := by omega
    have h12 : c.toNat ≠ 12 := by omega
    simp [isSpace, hother ' ' (by decide), hother '\t' (by decide), hother '\n' (by decide),
      hother '\r' (by decide), h11, h12]
  have hsign : takeSign (c :: rest) = (false, c :: rest) := by
    simp only [takeSign]
    split
    · next heq => exact absurd (List.cons.inj heq).1 (hother '-' (by decide))
    · next heq => exact absurd (List.cons.inj heq).1 (hother '+' (by decide))
    · rfl
  have hall : (c :: rest).takeWhile Char.isDigit = c :: rest :=
    List.takeWhile_eq_self_iff.2 hdigits
  have hlt : ofDecimal (c :: rest) < 10 ^ 4 :=
    Nat.lt_of_lt_of_le (ofDecimal_lt hdigits) (Nat.pow_le_pow_right (by decide) hlength)
  -- four digits are in the range of `int`
  have hrange : ¬ ((ofDecimal (c :: rest) : Int) < intMin ∨
      intMax < (ofDecimal (c :: rest) : Int)) := by
    simp only [intMin, intMax]
    omega
  have hskip : (c :: rest).dropWhile isSpace = c :: rest := by
    rw [List.dropWhile_cons, hspace]
    rfl
  simp only [stoi, hskip, hsign, hall, if_neg (List.cons_ne_nil c rest), Bool.false_eq_true,
    if_false, if_neg hrange]

/-- The sign is part of the text. -/
theorem takeSign_suffix (s : Str) : (takeSign s).2 <:+ s := by
  simp only [takeSign]
  split
  · exact List.suffix_cons _ _
  · exact List.suffix_cons _ _
  · exact List.suffix_refl _

/-- A number that is read has no more digits than the text. -/
theorem lt_of_stoi {s : Str} {n : Int} (h : stoi s = .ok n) : n < 10 ^ s.length := by
  simp only [stoi] at h
  have hlength : ((takeSign (s.dropWhile isSpace)).2.takeWhile Char.isDigit).length ≤ s.length :=
    Nat.le_trans (List.takeWhile_sublist _).length_le
      (Nat.le_trans (takeSign_suffix _).length_le (List.dropWhile_suffix _).length_le)
  have hdigits : AllDigits ((takeSign (s.dropWhile isSpace)).2.takeWhile Char.isDigit) :=
    fun c hc => List.mem_takeWhile_imp hc
  have hlt := Nat.lt_of_lt_of_le (ofDecimal_lt hdigits) (Nat.pow_le_pow_right (by decide) hlength)
  generalize (takeSign (s.dropWhile isSpace)).2.takeWhile Char.isDigit = digits at h hlt
  have hcast : ((ofDecimal digits : Nat) : Int) < 10 ^ s.length := by exact_mod_cast hlt
  split_ifs at h
  · cases h
    omega
  · cases h
    exact hcast

/-! ## The parts of a text -/

/-- What the documentation asks of the characters: the separators at their places, and digits at
all others. -/
structure WellWritten (s : Str) : Prop where
  separators : slice s 4 1 = ['-'] ∧ slice s 7 1 = ['-'] ∧ slice s 10 1 = [' '] ∧
    slice s 13 1 = [':'] ∧ slice s 16 1 = [':']
  year : AllDigits (slice s 0 4)
  month : AllDigits (slice s 5 2)
  day : AllDigits (slice s 8 2)
  hour : AllDigits (slice s 11 2)
  minute : AllDigits (slice s 14 2)
  second : AllDigits (slice s 17 2)

theorem length_slice {s : Str} {pos n : Nat} (h : pos + n ≤ s.length) :
    (slice s pos n).length = n := by
  rw [slice, List.length_take, List.length_drop]
  omega

/-- A part of the text in front of another. -/
theorem slice_append_slice (s : Str) (pos n m : Nat) :
    slice s pos n ++ slice s (pos + n) m = slice s pos (n + m) := by
  rw [slice, slice, slice, List.take_add, List.drop_drop]

/-- A text with the separators is made of its parts. -/
theorem timeText_slices {s : Str} (hlength : s.length = 19)
    (h : slice s 4 1 = ['-'] ∧ slice s 7 1 = ['-'] ∧ slice s 10 1 = [' '] ∧
      slice s 13 1 = [':'] ∧ slice s 16 1 = [':']) :
    timeText (slice s 0 4) (slice s 5 2) (slice s 8 2) (slice s 11 2) (slice s 14 2)
      (slice s 17 2) = s := by
  obtain ⟨h4, h7, h10, h13, h16⟩ := h
  have hwhole : slice s 0 19 = s := List.take_of_length_le (by rw [List.drop_zero]; omega)
  have hjoin : timeText (slice s 0 4) (slice s 5 2) (slice s 8 2) (slice s 11 2) (slice s 14 2)
      (slice s 17 2) = slice s 0 4 ++ (slice s 4 1 ++ (slice s 5 2 ++ (slice s 7 1 ++
        (slice s 8 2 ++ (slice s 10 1 ++ (slice s 11 2 ++ (slice s 13 1 ++ (slice s 14 2 ++
          (slice s 16 1 ++ slice s 17 2))))))))) := by
    rw [h4, h7, h10, h13, h16]
    rfl
  rw [hjoin, slice_append_slice s 16 1 2, slice_append_slice s 14 2, slice_append_slice s 13 1,
    slice_append_slice s 11 2, slice_append_slice s 10 1, slice_append_slice s 8 2,
    slice_append_slice s 7 1, slice_append_slice s 5 2, slice_append_slice s 4 1,
    slice_append_slice s 0 4, hwhole]

/-- The parts of a text that is made of parts of their lengths. -/
theorem slices_timeText {year month day hour minute second : Str} (hyear : year.length = 4)
    (hmonth : month.length = 2) (hday : day.length = 2) (hhour : hour.length = 2)
    (hminute : minute.length = 2) (hsecond : second.length = 2) :
    let s := timeText year month day hour minute second
    s.length = 19 ∧ (slice s 4 1 = ['-'] ∧ slice s 7 1 = ['-'] ∧ slice s 10 1 = [' '] ∧
      slice s 13 1 = [':'] ∧ slice s 16 1 = [':']) ∧ slice s 0 4 = year ∧ slice s 5 2 = month ∧
      slice s 8 2 = day ∧ slice s 11 2 = hour ∧ slice s 14 2 = minute ∧ slice s 17 2 = second := by
  obtain ⟨m₁, m₂, rfl⟩ := List.length_eq_two.1 hmonth
  obtain ⟨d₁, d₂, rfl⟩ := List.length_eq_two.1 hday
  obtain ⟨h₁, h₂, rfl⟩ := List.length_eq_two.1 hhour
  obtain ⟨i₁, i₂, rfl⟩ := List.length_eq_two.1 hminute
  obtain ⟨s₁, s₂, rfl⟩ := List.length_eq_two.1 hsecond
  obtain ⟨y₁, rest, rfl⟩ := List.exists_cons_of_length_eq_add_one hyear
  obtain ⟨y₂, y₃, y₄, rfl⟩ := List.length_eq_three.1 (Nat.succ.inj hyear)
  exact ⟨rfl, ⟨rfl, rfl, rfl, rfl, rfl⟩, rfl, rfl, rfl, rfl, rfl, rfl⟩


/-! ## The text of six numbers -/

/-- A number in as many digits as a width says. -/
structure IsField (text : Str) (width : Nat) (n : Int) : Prop where
  length : text.length = width
  digits : AllDigits text
  value : (ofDecimal text : Int) = n

theorem zeroPadded_isField {width : Nat} {n : Int} (hwidth : 0 < width) (hn : 0 ≤ n)
    (hlt : n < 10 ^ width) : IsField (zeroPadded width n) width n := by
  obtain ⟨k, rfl⟩ := Int.eq_ofNat_of_zero_le hn
  have hpadded : zeroPadded width (k : Int) = padded width k := if_neg (Int.not_lt.2 hn)
  rw [hpadded]
  exact ⟨length_padded hwidth (by exact_mod_cast hlt), allDigits_padded width k,
    by rw [ofDecimal_padded]⟩

theorem IsField.stoi_eq {text : Str} {width : Nat} {n : Int} (h : IsField text width n)
    (hwidth : 0 < width) (hle : width ≤ 4) : stoi text = .ok n := by
  have hlength := h.length
  have hne : text ≠ [] := List.ne_nil_of_length_pos (by omega)
  rw [stoi_of_digits h.digits hne (by omega), h.value]

/-- Digits that are read as a number are the number in their width. -/
theorem eq_zeroPadded {text : Str} {n : Int} {width : Nat} (hlength : text.length = width)
    (hwidth : 0 < width) (hle : width ≤ 4) (hdigits : AllDigits text) (h : stoi text = .ok n) :
    text = zeroPadded width n := by
  have hne : text ≠ [] := List.ne_nil_of_length_pos (by omega)
  rw [stoi_of_digits hdigits hne (by omega)] at h
  cases h
  have hpadded : zeroPadded width (ofDecimal text : Int) = padded width (ofDecimal text) :=
    if_neg (Int.not_lt.2 (Int.natCast_nonneg _))
  rw [hpadded, ← hlength, padded_ofDecimal hdigits hne]

/-- The six numbers in the format. -/
def TimeFields.text (f : TimeFields) : Str :=
  timeText (zeroPadded 4 f.year) (zeroPadded 2 f.month) (zeroPadded 2 f.day)
    (zeroPadded 2 f.hour) (zeroPadded 2 f.minute) (zeroPadded 2 f.second)

/-- The text of numbers in their ranges is well written, and they are read from it. -/
theorem accepts_text {f : TimeFields} (h : f.InRange) (hyear : f.year ≤ 9999) :
    Accepts f.text f ∧ WellWritten f.text := by
  have hy : IsField (zeroPadded 4 f.year) 4 f.year :=
    zeroPadded_isField (by decide) (by have := h.year; omega) (by omega)
  have hmo : IsField (zeroPadded 2 f.month) 2 f.month :=
    zeroPadded_isField (by decide) (by have := h.month; omega) (by have := h.month; omega)
  have hd : IsField (zeroPadded 2 f.day) 2 f.day :=
    zeroPadded_isField (by decide) (by have := h.day; omega) (by have := h.day; omega)
  have hh : IsField (zeroPadded 2 f.hour) 2 f.hour :=
    zeroPadded_isField (by decide) (by have := h.hour; omega) (by have := h.hour; omega)
  have hmi : IsField (zeroPadded 2 f.minute) 2 f.minute :=
    zeroPadded_isField (by decide) (by have := h.minute; omega) (by have := h.minute; omega)
  have hs : IsField (zeroPadded 2 f.second) 2 f.second :=
    zeroPadded_isField (by decide) (by have := h.second; omega) (by have := h.second; omega)
  obtain ⟨hlength, hseparators, hsy, hsmo, hsd, hsh, hsmi, hss⟩ :=
    slices_timeText hy.length hmo.length hd.length hh.length hmi.length hs.length
  refine ⟨⟨hlength, ⟨?_, ?_, ?_, ?_, ?_, ?_⟩, h⟩, ⟨hseparators, ?_, ?_, ?_, ?_, ?_, ?_⟩⟩
  · exact hsy ▸ hy.stoi_eq (by decide) (by decide)
  · exact hsmo ▸ hmo.stoi_eq (by decide) (by decide)
  · exact hsd ▸ hd.stoi_eq (by decide) (by decide)
  · exact hsh ▸ hh.stoi_eq (by decide) (by decide)
  · exact hsmi ▸ hmi.stoi_eq (by decide) (by decide)
  · exact hss ▸ hs.stoi_eq (by decide) (by decide)
  · exact hsy ▸ hy.digits
  · exact hsmo ▸ hmo.digits
  · exact hsd ▸ hd.digits
  · exact hsh ▸ hh.digits
  · exact hsmi ▸ hmi.digits
  · exact hss ▸ hs.digits

/-- A well written text is that of the numbers read from it. -/
theorem eq_text {s : Str} {f : TimeFields} (h : Accepts s f) (hwell : WellWritten s) :
    s = f.text := by
  have hlength : ∀ pos n, pos + n ≤ 19 → (slice s pos n).length = n := fun pos n hle =>
    length_slice (by rw [h.length]; exact hle)
  rw [← timeText_slices h.length hwell.separators, TimeFields.text,
    ← eq_zeroPadded (hlength 0 4 (by decide)) (by decide) (by decide) hwell.year h.reads.year,
    ← eq_zeroPadded (hlength 5 2 (by decide)) (by decide) (by decide) hwell.month h.reads.month,
    ← eq_zeroPadded (hlength 8 2 (by decide)) (by decide) (by decide) hwell.day h.reads.day,
    ← eq_zeroPadded (hlength 11 2 (by decide)) (by decide) (by decide) hwell.hour h.reads.hour,
    ← eq_zeroPadded (hlength 14 2 (by decide)) (by decide) (by decide) hwell.minute
      h.reads.minute,
    ← eq_zeroPadded (hlength 17 2 (by decide)) (by decide) (by decide) hwell.second
      h.reads.second]

/-- A year that is read has four digits at most. -/
theorem Accepts.year_le {s : Str} {f : TimeFields} (h : Accepts s f) : f.year ≤ 9999 := by
  have hlt := lt_of_stoi h.reads.year
  rw [length_slice (by rw [h.length]; decide)] at hlt
  omega

/-! ## Days behind the end of a month -/

/-- The date of the numbers. -/
def TimeFields.date (f : TimeFields) : Date := ⟨f.year, f.month, f.day⟩

/-- The numbers with a day behind the end of its month counted on in the next one. -/
def TimeFields.normalized (f : TimeFields) : TimeFields :=
  if f.day ≤ daysInMonth f.year f.month then f
  else { f with month := f.month + 1, day := f.day - daysInMonth f.year f.month }

theorem TimeFields.normalized_eq_iff (f : TimeFields) :
    f.normalized = f ↔ f.day ≤ daysInMonth f.year f.month := by
  simp only [normalized]
  split_ifs with hle
  · exact iff_of_true rfl hle
  · refine iff_of_false (fun heq => ?_) hle
    have hmonth : f.month + 1 = f.month := congrArg TimeFields.month heq
    omega

/-- The numbers are then those of a date of the calendar, on the same day. -/
theorem TimeFields.InRange.normalized {f : TimeFields} (h : f.InRange) :
    f.normalized.InRange ∧ f.normalized.date.Real ∧
      dayNumber f.normalized.date = dayNumber f.date := by
  have hmonth := h.month
  have hday := h.day
  simp only [TimeFields.normalized]
  split_ifs with hle
  · exact ⟨h, ⟨hmonth.1, hmonth.2, hday.1, hle⟩, rfl⟩
  · -- the day goes over the end of the month; December has 31 days, so it is not December
    have hbounds := daysInMonth_bounds f.year f.month
    have hnext := daysInMonth_bounds f.year (f.month + 1)
    have hlt : f.month < 12 := by
      rcases eq_or_ne f.month 12 with heq | hne
      · rw [heq] at hle
        exact absurd hday.2 hle
      · omega
    refine ⟨⟨h.year, ?_, ?_, h.hour, h.minute, h.second⟩, ⟨?_, ?_, ?_, ?_⟩, ?_⟩
    · show 1 ≤ f.month + 1 ∧ f.month + 1 ≤ 12
      omega
    · show 1 ≤ f.day - daysInMonth f.year f.month ∧ f.day - daysInMonth f.year f.month ≤ 31
      omega
    · show 1 ≤ f.month + 1
      omega
    · show f.month + 1 ≤ 12
      omega
    · show 1 ≤ f.day - daysInMonth f.year f.month
      omega
    · show f.day - daysInMonth f.year f.month ≤ daysInMonth f.year (f.month + 1)
      omega
    · have hstep := daysBeforeMonth_succ f.year hmonth.1 hlt
      simp only [dayNumber, TimeFields.date]
      omega

/-- The numbers of a `struct tm`. -/
def Tm.fields (tm : Tm) : TimeFields :=
  ⟨tm.year + 1900, tm.mon + 1, tm.mday, tm.hour, tm.min, tm.sec⟩

theorem strftime_eq (tm : Tm) : strftime tm = tm.fields.text := rfl

theorem tmToSecs_fields {f : TimeFields} (h : f.InRange) (hyear : f.year ≤ 9999) :
    tmToSecs f.tm = 86400 * dayNumber f.date + 3600 * f.hour + 60 * f.minute + f.second := by
  have hlow := h.year
  have hmonth := h.month
  have hdate : f.tm.date = f.date := by
    simp only [Tm.date, TimeFields.tm, TimeFields.date, Date.mk.injEq, and_true]
    omega
  have htm : f.tm.year = f.year - 1900 ∧ f.tm.mon = f.month - 1 := ⟨rfl, rfl⟩
  have hint : intMin = -2147483648 ∧ intMax = 2147483647 := ⟨rfl, rfl⟩
  rw [tmToSecs_eq (by omega) (by omega), hdate]
  rfl

/-- **What `ToFormatTime` prints of a time that was built from six numbers.** -/
theorem toFormatTime_tmToSecs {f : TimeFields} (h : f.InRange) (hyear : f.year ≤ 9999) :
    DateTime.toFormatTime ⟨tmToSecs f.tm⟩ = .ok f.normalized.text := by
  obtain ⟨hrange, hreal, hnumber⟩ := h.normalized
  have hsecs := tmToSecs_fields h hyear
  rw [← hnumber] at hsecs
  have hhour := h.hour
  have hminute := h.minute
  have hsecond := h.second
  have hclock : f.normalized.year = f.year ∧ f.normalized.hour = f.hour ∧
      f.normalized.minute = f.minute ∧ f.normalized.second = f.second := by
    simp only [TimeFields.normalized]
    split_ifs <;> exact ⟨rfl, rfl, rfl, rfl⟩
  have hcivil : civil (tmToSecs f.tm / 86400) = f.normalized.date := by
    rw [eq_civil hreal]
    congr 1
    omega
  obtain ⟨tm, htm, hshows⟩ := secsToTm_of_year (t := tmToSecs f.tm) (by
    have hlow := h.year
    rw [hcivil]
    show 1900 ≤ f.normalized.year ∧ f.normalized.year ≤ 9999
    omega)
  obtain ⟨hdate, hh, hm, hs⟩ := hshows.of_real hreal hhour hminute hsecond hsecs
  have hfields : tm.fields = f.normalized := by
    have hy : tm.year + 1900 = f.normalized.year := congrArg Date.year hdate
    have hmo : tm.mon + 1 = f.normalized.month := congrArg Date.month hdate
    have hd : tm.mday = f.normalized.day := congrArg Date.day hdate
    rw [Tm.fields, hy, hmo, hd, hh, hm, hs, ← hclock.2.1, ← hclock.2.2.1, ← hclock.2.2.2]
  rw [DateTime.toFormatTime]
  simp only [htm]
  rw [strftime_eq, hfields]

/-! ## Texts and times -/

/-- **The intended function.** A text comes back from the time that it is turned into, or it makes
`FromFormatTime` throw `std::invalid_argument`. -/
def Faithful (s : Str) : Prop :=
  (∃ d, DateTime.fromFormatTime s = .ok d ∧ d.toFormatTime = .ok s) ∨
    ∃ what, DateTime.fromFormatTime s = .error (.invalidArgument what)

/-- **A text comes back exactly when it has the documented form**: where six numbers are read from a
text of 19 characters and are in their ranges, the separators are at their places, all else are
digits, and the month has the day. -/
theorem faithful_iff (s : Str) :
    Faithful s ↔
      ∀ f, Accepts s f → WellWritten s ∧ f.day ≤ daysInMonth f.year f.month := by
  constructor
  · rintro (⟨d, hfrom, hto⟩ | ⟨what, herror⟩) f hf
    · have hd : DateTime.fromFormatTime s = .ok ⟨tmToSecs f.tm⟩ :=
        DateTime.fromFormatTime_ok_iff.2 ⟨f, hf, rfl⟩
      -- the text is accepted, so it is that of the normalized fields
      rw [hfrom] at hd
      cases hd
      rw [toFormatTime_tmToSecs hf.inRange hf.year_le] at hto
      have hs : f.normalized.text = s := Except.ok.inj hto
      have hyear : f.normalized.year = f.year := by
        simp only [TimeFields.normalized]
        split_ifs <;> rfl
      obtain ⟨haccepts, hwell⟩ := accepts_text hf.inRange.normalized.1 (by
        rw [hyear]
        exact hf.year_le)
      rw [hs] at haccepts hwell
      refine ⟨hwell, (f.normalized_eq_iff).1 ?_⟩
      -- a day behind the end of the month would have been carried into the next
      have hmonth := haccepts.reads.month
      rw [hf.reads.month] at hmonth
      simp only [TimeFields.normalized] at hmonth ⊢
      split_ifs at hmonth ⊢ with hle
      · rfl
      · have heq : f.month = f.month + 1 := Except.ok.inj hmonth
        omega
    · rw [DateTime.fromFormatTime_ok_iff.2 ⟨f, hf, rfl⟩] at herror
      cases herror
  · intro h
    rcases hresult : DateTime.fromFormatTime s with e | d
    · obtain ⟨what, rfl⟩ := DateTime.fromFormatTime_error hresult
      exact .inr ⟨what, hresult⟩
    · obtain ⟨f, hf, rfl⟩ := DateTime.fromFormatTime_ok_iff.1 hresult
      obtain ⟨hwell, hday⟩ := h f hf
      refine .inl ⟨_, hresult, ?_⟩
      rw [toFormatTime_tmToSecs hf.inRange hf.year_le, (f.normalized_eq_iff).2 hday,
        ← eq_text hf hwell]

/-- A text with other separators is accepted. -/
theorem not_faithful_separators : ¬ ∀ s, Faithful s := by
  intro h
  have hfrom : DateTime.fromFormatTime (str "2024/01/02T03.04.05") = .ok ⟨1704164645⟩ := rfl
  have hto : DateTime.toFormatTime ⟨1704164645⟩ = .ok (str "2024-01-02 03:04:05") := rfl
  rcases h (str "2024/01/02T03.04.05") with ⟨d, hd, hback⟩ | ⟨what, herror⟩
  · rw [hfrom] at hd
    cases hd
    rw [hto] at hback
    exact absurd (Except.ok.inj hback) (by decide)
  · rw [hfrom] at herror
    cases herror

/-- A day behind the end of its month is accepted, too. -/
example : DateTime.fromFormatTime (str "2023-02-31 00:00:00") = .ok ⟨1677801600⟩ := rfl

/-! ## The inverse laws -/

/-- The first second of 1900. -/
def firstSecond : Int := -2208988800

/-- The last second of 9999. -/
def lastSecond : Int := 253402300799

example : firstSecond = 86400 * dayNumber ⟨1900, 1, 1⟩ := rfl

example :
    lastSecond = 86400 * dayNumber ⟨9999, 12, 31⟩ + 3600 * 23 + 60 * 59 + 59 := rfl

/-- The times between them are those of the years from 1900 to 9999. -/
theorem year_of_bounds {t : Int} (hlow : firstSecond ≤ t) (hhigh : t ≤ lastSecond) :
    1900 ≤ (civil (t / 86400)).year ∧ (civil (t / 86400)).year ≤ 9999 := by
  obtain ⟨hreal, hnumber⟩ := civil_spec (t / 86400)
  have hbounds := dayNumber_bounds hreal
  rw [hnumber] at hbounds
  have h1970 : daysBeforeYear 1970 = 719162 := rfl
  simp only [firstSecond] at hlow
  simp only [lastSecond] at hhigh
  constructor
  · by_contra hearly
    have hmono : daysBeforeYear ((civil (t / 86400)).year + 1) ≤ daysBeforeYear 1900 :=
      daysBeforeYear_mono (by omega)
    have h1900 : daysBeforeYear 1900 = 693595 := rfl
    omega
  · by_contra hlate
    have hmono : daysBeforeYear 10000 ≤ daysBeforeYear (civil (t / 86400)).year :=
      daysBeforeYear_mono (by omega)
    have h10000 : daysBeforeYear 10000 = 3652059 := rfl
    omega

/-- The numbers that the getters give. -/
def DateTime.fields (d : DateTime) : TimeFields :=
  ⟨d.getYear, d.getMonth, d.getDay, d.getHour, d.getMinute, d.getSecond⟩

/-- The numbers of a time: the date that the calendar reaches on its day, and the time of the day.
-/
def fieldsOf (t : Int) : TimeFields :=
  ⟨(civil (t / 86400)).year, (civil (t / 86400)).month, (civil (t / 86400)).day,
    t % 86400 / 3600, t % 3600 / 60, t % 60⟩

theorem fieldsOf_inRange {t : Int} (hyear : 1900 ≤ (civil (t / 86400)).year) :
    (fieldsOf t).InRange := by
  have hreal := (civil_spec (t / 86400)).1
  have hbounds := daysInMonth_bounds (civil (t / 86400)).year (civil (t / 86400)).month
  refine ⟨hyear, ⟨hreal.month_pos, hreal.month_le⟩, ⟨hreal.day_pos, ?_⟩, ?_, ?_, ?_⟩
  · exact Int.le_trans hreal.day_le hbounds.2
  · show 0 ≤ t % 86400 / 3600 ∧ t % 86400 / 3600 ≤ 23
    omega
  · show 0 ≤ t % 3600 / 60 ∧ t % 3600 / 60 ≤ 59
    omega
  · show 0 ≤ t % 60 ∧ t % 60 ≤ 59
    omega

theorem tmToSecs_fieldsOf {t : Int} (hyear : 1900 ≤ (civil (t / 86400)).year ∧
    (civil (t / 86400)).year ≤ 9999) : tmToSecs (fieldsOf t).tm = t := by
  have hdate : dayNumber (fieldsOf t).date = t / 86400 := dayNumber_civil (t / 86400)
  have hsecs := tmToSecs_fields (fieldsOf_inRange hyear.1) hyear.2
  rw [hdate] at hsecs
  rw [hsecs]
  show 86400 * (t / 86400) + 3600 * (t % 86400 / 3600) + 60 * (t % 3600 / 60) + t % 60 = t
  omega

theorem Tm.Shows.fields_eq {tm : Tm} {t : Int} (h : tm.Shows t) : tm.fields = fieldsOf t := by
  have hy : tm.year + 1900 = (civil (t / 86400)).year := congrArg Date.year h.date
  have hmo : tm.mon + 1 = (civil (t / 86400)).month := congrArg Date.month h.date
  have hd : tm.mday = (civil (t / 86400)).day := congrArg Date.day h.date
  rw [Tm.fields, hy, hmo, hd, h.hour, h.min, h.sec]
  rfl

/-- **The inverse laws.** A time from 1900-01-01 00:00:00 to 9999-12-31 23:59:59 comes back from its
text, its getters give its date in the calendar and its time of the day, and they rebuild it. -/
theorem inverse_laws {t : Int} (hlow : firstSecond ≤ t) (hhigh : t ≤ lastSecond) :
    (∃ text d, DateTime.toFormatTime ⟨t⟩ = .ok text ∧ DateTime.fromFormatTime text = .ok d ∧
        d.getTimestamp = t) ∧
      DateTime.fields ⟨t⟩ = fieldsOf t ∧ DateTime.ofFields (DateTime.fields ⟨t⟩) = .ok ⟨t⟩ := by
  have hyear := year_of_bounds hlow hhigh
  obtain ⟨tm, htm, hshows⟩ := secsToTm_of_year hyear
  have hgetters : DateTime.fields ⟨t⟩ = tm.fields := by
    simp only [DateTime.fields, DateTime.getYear, DateTime.getMonth, DateTime.getDay,
      DateTime.getHour, DateTime.getMinute, DateTime.getSecond, DateTime.getField, htm]
    rfl
  have hrange := fieldsOf_inRange hyear.1
  have hsecs := tmToSecs_fieldsOf hyear
  refine ⟨⟨(fieldsOf t).text, ⟨t⟩, ?_, ?_, rfl⟩, ?_, ?_⟩
  · simp only [DateTime.toFormatTime, htm]
    rw [strftime_eq, hshows.fields_eq]
  · apply DateTime.fromFormatTime_ok_iff.2
    exact ⟨fieldsOf t, (accepts_text hrange hyear.2).1, by rw [hsecs]⟩
  · rw [hgetters, hshows.fields_eq]
  · rw [hgetters, hshows.fields_eq, DateTime.ofFields_ok_iff]
    exact ⟨hrange, by rw [hsecs]⟩

/-- The second before the epoch. -/
theorem inverse_laws_before_epoch :
    (∃ text d, DateTime.toFormatTime ⟨-1⟩ = .ok text ∧ DateTime.fromFormatTime text = .ok d ∧
        d.getTimestamp = -1) ∧
      DateTime.fields ⟨-1⟩ = fieldsOf (-1) ∧
      DateTime.ofFields (DateTime.fields ⟨-1⟩) = .ok ⟨-1⟩ :=
  inverse_laws (by decide) (by decide)

end Ssgx.Time
