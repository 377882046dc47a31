import Ssgx.Time.FormatTime

/-!
# Times and spans of time

`TimeSpan` and the operators of `DateTime`. A span is one number of seconds; its getters take days,
hours, minutes and seconds out of it, each rounded towards zero. `parts_iff` says that the four
parts are the one way to write a span with parts in their bounds and of one sign.

A time with a span is a number of seconds again. `added_span` says what becomes of the fields of the
time, and `format_order` that times are ordered as their texts are. The numbers are unbounded here:
an overflow of `time_t` is undefined in the source.
-/

set_option autoImplicit false

namespace Ssgx.Time

open Ssgx.Support

/-! ## The classes -/

/-- `TimeSpan` -/
structure TimeSpan where
  timeSpan : Int
deriving DecidableEq

namespace TimeSpan

/-- `TimeSpan::TimeSpan()` -/
def zero : TimeSpan := ⟨0⟩

/-- The constructor from days, hours, minutes and seconds. -/
def ofParts (numDays numHours numMins numSecs : Int) : TimeSpan :=
  ⟨numSecs + 60 * (numMins + 60 * (numHours + 24 * numDays))⟩

/-- `GetTimeSpan` -/
def getTimeSpan (s : TimeSpan) : Int := s.timeSpan

/-- `GetDays` -/
def getDays (s : TimeSpan) : Int := s.timeSpan.tdiv (24 * 3600)

/-- `GetTotalHours` -/
def getTotalHours (s : TimeSpan) : Int := s.timeSpan.tdiv 3600

/-- `GetTotalMinutes` -/
def getTotalMinutes (s : TimeSpan) : Int := s.timeSpan.tdiv 60

/-- `GetTotalSeconds` -/
def getTotalSeconds (s : TimeSpan) : Int := s.timeSpan

/-- `GetHours` -/
def getHours (s : TimeSpan) : Int := s.getTotalHours - s.getDays * 24

/-- `GetMinutes` -/
def getMinutes (s : TimeSpan) : Int := s.getTotalMinutes - s.getTotalHours * 60

/-- `GetSeconds` -/
def getSeconds (s : TimeSpan) : Int := s.getTotalSeconds - s.getTotalMinutes * 60

/-- `operator+` and `operator+=` -/
def add (s t : TimeSpan) : TimeSpan := ⟨s.timeSpan + t.timeSpan⟩

/-- `operator-` and `operator-=` -/
def sub (s t : TimeSpan) : TimeSpan := ⟨s.timeSpan - t.timeSpan⟩

end TimeSpan

namespace DateTime

/-- `operator+` and `operator+=` of a span. -/
def add (d : DateTime) (span : TimeSpan) : DateTime := ⟨d.timestamp + span.getTimeSpan⟩

/-- `operator-` and `operator-=` of a span. -/
def sub (d : DateTime) (span : TimeSpan) : DateTime := ⟨d.timestamp - span.getTimeSpan⟩

/-- `operator-` of a time. -/
def minus (d time : DateTime) : TimeSpan := ⟨d.timestamp - time.timestamp⟩

/-- `operator<` -/
def less (d time : DateTime) : Bool := d.timestamp < time.timestamp

/-- `operator==` -/
def equal (d time : DateTime) : Bool := d.timestamp = time.timestamp

end DateTime

/-! ## The parts of a span -/

/-- Four parts in their bounds and of one sign. -/
structure Parts (days hours mins secs : Int) : Prop where
  sign : (0 ≤ days ∧ 0 ≤ hours ∧ 0 ≤ mins ∧ 0 ≤ secs) ∨
    (days ≤ 0 ∧ hours ≤ 0 ∧ mins ≤ 0 ∧ secs ≤ 0)
  hoursBound : -24 < hours ∧ hours < 24
  minsBound : -60 < mins ∧ mins < 60
  secsBound : -60 < secs ∧ secs < 60

/-- The getters of a span that is not negative. -/
theorem parts_of_nonneg {s : TimeSpan} (h : 0 ≤ s.timeSpan) :
    s.getDays = s.timeSpan / 86400 ∧ s.getHours = s.timeSpan % 86400 / 3600 ∧
      s.getMinutes = s.timeSpan % 3600 / 60 ∧ s.getSeconds = s.timeSpan % 60 := by
  simp only [TimeSpan.getDays, TimeSpan.getHours, TimeSpan.getMinutes, TimeSpan.getSeconds,
    TimeSpan.getTotalHours, TimeSpan.getTotalMinutes, TimeSpan.getTotalSeconds]
  simp only [Int.tdiv_eq_ediv_of_nonneg h]
  omega

/-- The getters round towards zero, so the opposite span has the opposite parts. -/
theorem parts_neg (s : TimeSpan) :
    (TimeSpan.mk (-s.timeSpan)).getDays = -s.getDays ∧
      (TimeSpan.mk (-s.timeSpan)).getHours = -s.getHours ∧
      (TimeSpan.mk (-s.timeSpan)).getMinutes = -s.getMinutes ∧
      (TimeSpan.mk (-s.timeSpan)).getSeconds = -s.getSeconds := by
  simp only [TimeSpan.getDays, TimeSpan.getHours, TimeSpan.getMinutes, TimeSpan.getSeconds,
    TimeSpan.getTotalHours, TimeSpan.getTotalMinutes, TimeSpan.getTotalSeconds, Int.neg_tdiv]
  generalize s.timeSpan.tdiv (24 * 3600) = days
  generalize s.timeSpan.tdiv 3600 = hours
  generalize s.timeSpan.tdiv 60 = mins
  refine ⟨trivial, ?_, ?_, ?_⟩ <;> omega

/-- The getters of a span with parts that are not negative. -/
theorem parts_ofParts {days hours mins secs : Int} (hdays : 0 ≤ days)
    (hhours : 0 ≤ hours ∧ hours < 24) (hmins : 0 ≤ mins ∧ mins < 60)
    (hsecs : 0 ≤ secs ∧ secs < 60) :
    let s := TimeSpan.ofParts days hours mins secs
    s.getDays = days ∧ s.getHours = hours ∧ s.getMinutes = mins ∧ s.getSeconds = secs := by
  have htotal : (TimeSpan.ofParts days hours mins secs).timeSpan =
      secs + 60 * (mins + 60 * (hours + 24 * days)) := rfl
  obtain ⟨hd, hh, hm, hs⟩ := parts_of_nonneg (s := TimeSpan.ofParts days hours mins secs) (by omega)
  simp only [hd, hh, hm, hs, htotal]
  omega

/-- **The parts of a span.** The getters give four parts exactly where the span is made of them and
they are in their bounds and of one sign. -/
theorem parts_iff (s : TimeSpan) (days hours mins secs : Int) :
    (s.getDays = days ∧ s.getHours = hours ∧ s.getMinutes = mins ∧ s.getSeconds = secs) ↔
      s = TimeSpan.ofParts days hours mins secs ∧ Parts days hours mins secs := by
  constructor
  · rintro ⟨rfl, rfl, rfl, rfl⟩
    have hmade : s = TimeSpan.ofParts s.getDays s.getHours s.getMinutes s.getSeconds := by
      refine congrArg TimeSpan.mk ?_
      simp only [TimeSpan.getHours, TimeSpan.getMinutes, TimeSpan.getSeconds,
        TimeSpan.getTotalSeconds]
      omega
    refine ⟨hmade, ?_⟩
    rcases Int.le_total 0 s.timeSpan with hnonneg | hneg
    · obtain ⟨hd, hh, hm, hs⟩ := parts_of_nonneg hnonneg
      rw [hd, hh, hm, hs]
      refine ⟨Or.inl ?_, ?_, ?_, ?_⟩ <;> omega
    · -- the parts of the opposite span, which is not negative
      obtain ⟨hd, hh, hm, hs⟩ := parts_of_nonneg (s := ⟨-s.timeSpan⟩) (by simpa using hneg)
      obtain ⟨hd', hh', hm', hs'⟩ := parts_neg s
      rw [hd'] at hd
      rw [hh'] at hh
      rw [hm'] at hm
      rw [hs'] at hs
      simp only at hd hh hm hs
      refine ⟨Or.inr ?_, ?_, ?_, ?_⟩ <;> omega
  · rintro ⟨rfl, hparts⟩
    obtain ⟨hsign, hhours, hmins, hsecs⟩ := hparts
    rcases hsign with ⟨h1, h2, h3, h4⟩ | ⟨h1, h2, h3, h4⟩
    · exact parts_ofParts h1 ⟨h2, hhours.2⟩ ⟨h3, hmins.2⟩ ⟨h4, hsecs.2⟩
    · have hopposite := @parts_ofParts (-days) (-hours) (-mins) (-secs)
        (by omega) (by omega) (by omega) (by omega)
      have hneg : TimeSpan.ofParts (-days) (-hours) (-mins) (-secs) =
          ⟨-(TimeSpan.ofParts days hours mins secs).timeSpan⟩ := by
        refine congrArg TimeSpan.mk ?_
        simp only [TimeSpan.ofParts]
        omega
      obtain ⟨hd, hh, hm, hs⟩ := parts_neg (TimeSpan.ofParts days hours mins secs)
      simp only [hneg, hd, hh, hm, hs] at hopposite
      omega

/-! ## The fields of a time and a span -/

/-- A time whose year is an `int`, also counted from 1900. -/
structure Representable (d : DateTime) : Prop where
  yearLow : intMin ≤ (civil (d.timestamp / 86400)).year - 1900
  yearHigh : (civil (d.timestamp / 86400)).year ≤ intMax

/-- `__secs_to_tm` does not reject it. -/
theorem Representable.timestamp_bounds {d : DateTime} (h : Representable d) :
    intMin * 31622400 ≤ d.timestamp ∧ d.timestamp ≤ intMax * 31622400 := by
  obtain ⟨hlow, hhigh⟩ := h
  obtain ⟨hreal, hnumber⟩ := civil_spec (d.timestamp / 86400)
  have hbounds := dayNumber_bounds hreal
  rw [hnumber] at hbounds
  -- a year has less than 366 days on average
  simp only [daysBeforeYear] at hbounds
  simp only [intMin, intMax] at hlow hhigh ⊢
  omega

namespace DateTime

/-- The date that the getters give. -/
def date (d : DateTime) : Date := ⟨d.getYear, d.getMonth, d.getDay⟩

/-- The time of the day that the getters give, in seconds. -/
def secondOfDay (d : DateTime) : Int := 3600 * d.getHour + 60 * d.getMinute + d.getSecond

/-- What the getters give of a time. -/
theorem getters_eq {d : DateTime} (h : Representable d) :
    d.date = civil (d.timestamp / 86400) ∧ d.secondOfDay = d.timestamp % 86400 ∧
      d.getDayOfWeek = (d.timestamp / 86400 + 4) % 7 := by
  have hhigh := h.yearHigh
  obtain ⟨hfirst, hlast⟩ := h.timestamp_bounds
  obtain ⟨tm, htm, hshows⟩ := secsToTm_spec hfirst hlast ⟨h.yearLow, by omega⟩
  simp only [date, secondOfDay, getYear, getMonth, getDay, getHour, getMinute, getSecond,
    getDayOfWeek, getField, htm]
  refine ⟨hshows.date, ?_, hshows.wday⟩
  rw [hshows.hour, hshows.min, hshows.sec]
  omega

theorem dayNumber_date {d : DateTime} (h : Representable d) :
    dayNumber d.date = d.timestamp / 86400 := by
  rw [(getters_eq h).1, dayNumber_civil]

end DateTime

/-- The times from 1900 to 9999 are among them. -/
theorem representable_of_bounds {t : Int} (hlow : firstSecond ≤ t) (hhigh : t ≤ lastSecond) :
    Representable ⟨t⟩ := by
  obtain ⟨hearly, hlate⟩ := year_of_bounds hlow hhigh
  constructor
  · simp only [intMin]
    omega
  · simp only [intMax]
    omega

/-- **A time with a span.** The time of the day goes on from that of the time, the date goes on by a
day at every midnight, the day of the week goes round with it, and both the span and the time come
back. -/
theorem added_span {d : DateTime} {span : TimeSpan} (hd : Representable d)
    (hsum : Representable (d.add span)) :
    let midnights := (d.secondOfDay + span.getTimeSpan) / 86400
    (d.add span).date.Real ∧ dayNumber (d.add span).date = dayNumber d.date + midnights ∧
      (d.add span).secondOfDay = (d.secondOfDay + span.getTimeSpan) % 86400 ∧
      (d.add span).getDayOfWeek = (d.getDayOfWeek + midnights) % 7 ∧
      (d.add span).minus d = span ∧ (d.add span).sub span = d := by
  obtain ⟨-, hsecond, hweekday⟩ := DateTime.getters_eq hd
  obtain ⟨hdate', hsecond', hweekday'⟩ := DateTime.getters_eq hsum
  have hday := DateTime.dayNumber_date hd
  have hday' := DateTime.dayNumber_date hsum
  have htime : (d.add span).timestamp = d.timestamp + span.getTimeSpan := rfl
  rw [htime] at hday' hsecond' hweekday'
  refine ⟨?_, ?_, ?_, ?_, ?_, ?_⟩
  · rw [hdate']
    exact (civil_spec _).1
  · rw [hday', hday, hsecond]
    omega
  · rw [hsecond', hsecond]
    omega
  · rw [hweekday', hweekday, hsecond]
    omega
  · refine congrArg TimeSpan.mk ?_
    rw [htime]
    exact add_sub_cancel_left _ _
  · refine congrArg DateTime.mk ?_
    rw [htime]
    omega

/-- The second before the leap day of 2024, a Wednesday, with a day and two seconds. -/
theorem added_span_leap_day :
    dayNumber ((DateTime.mk 1709164799).add ⟨86402⟩).date = dayNumber ⟨2024, 2, 28⟩ + 2 ∧
      ((DateTime.mk 1709164799).add ⟨86402⟩).secondOfDay = 1 ∧
      ((DateTime.mk 1709164799).add ⟨86402⟩).getDayOfWeek = 5 := by
  obtain ⟨-, hday, hsecond, hweekday, -⟩ := @added_span ⟨1709164799⟩ ⟨86402⟩
    (representable_of_bounds (by decide) (by decide))
    (representable_of_bounds (by decide) (by decide))
  exact ⟨hday, hsecond, hweekday⟩

/-- **The span between two times.** Of two times, the days between them are those between their
dates, less one where the time of the day is not reached, and the other parts are what is left. The
span the other way has the opposite parts. -/
theorem span_between {d e : DateTime} (hd : Representable d) (he : Representable e)
    (hle : e.less d = false) :
    (e.minus d).getDays = dayNumber e.date - dayNumber d.date -
        (if e.secondOfDay < d.secondOfDay then 1 else 0) ∧
      3600 * (e.minus d).getHours + 60 * (e.minus d).getMinutes + (e.minus d).getSeconds =
        (e.secondOfDay - d.secondOfDay) % 86400 ∧
      (d.minus e).getDays = -(e.minus d).getDays ∧ (d.minus e).getHours = -(e.minus d).getHours ∧
      (d.minus e).getMinutes = -(e.minus d).getMinutes ∧
      (d.minus e).getSeconds = -(e.minus d).getSeconds := by
  have hle' : d.timestamp ≤ e.timestamp := Int.not_lt.1 (of_decide_eq_false hle)
  have hspan : (e.minus d).timeSpan = e.timestamp - d.timestamp := rfl
  obtain ⟨hdays, hhours, hmins, hsecs⟩ := parts_of_nonneg (s := e.minus d) (by omega)
  have hopposite : d.minus e = ⟨-(e.minus d).timeSpan⟩ := by
    refine congrArg TimeSpan.mk ?_
    rw [hspan]
    omega
  refine ⟨?_, ?_, ?_⟩
  · rw [hdays, hspan, DateTime.dayNumber_date hd, DateTime.dayNumber_date he,
      (DateTime.getters_eq hd).2.1, (DateTime.getters_eq he).2.1]
    split_ifs <;> omega
  · rw [hhours, hmins, hsecs, hspan, (DateTime.getters_eq hd).2.1, (DateTime.getters_eq he).2.1]
    omega
  · rw [hopposite]
    exact parts_neg (e.minus d)

/-- A minute over midnight is no day. -/
theorem span_over_midnight :
    ((DateTime.mk 86430).minus ⟨86370⟩).getDays = 0 ∧
      ((DateTime.mk 86370).minus ⟨86430⟩).getMinutes = -1 := by
  obtain ⟨hdays, -, -, -, hminutes, -⟩ := @span_between ⟨86370⟩ ⟨86430⟩
    (representable_of_bounds (by decide) (by decide))
    (representable_of_bounds (by decide) (by decide)) (by decide)
  exact ⟨hdays, hminutes⟩

/-! ## The order of times -/

/-- Fields of one width are ordered as their numbers, in front of what is behind them. -/
theorem IsField.lt_iff {a b : Str} {width : Nat} {n m : Int} (ha : IsField a width n)
    (hb : IsField b width m) (x y : Str) :
    a ++ x < b ++ y ↔ n < m ∨ (n = m ∧ x < y) := by
  have hlength : a.length = b.length := ha.length.trans hb.length.symm
  have hlt : a < b ↔ n < m := by
    rw [lt_iff_ofDecimal_lt ha.digits hb.digits hlength, ← ha.value, ← hb.value]
    exact Int.ofNat_lt.symm
  have heq : a = b ↔ n = m := by
    rw [← ha.value, ← hb.value, Int.ofNat_inj]
    exact ⟨congrArg ofDecimal, ofDecimal_injective ha.digits hb.digits hlength⟩
  rw [append_lt_append_iff hlength, hlt, heq]

/-- The last field has nothing behind it. -/
theorem IsField.lt_iff_value {a b : Str} {width : Nat} {n m : Int} (ha : IsField a width n)
    (hb : IsField b width m) : a < b ↔ n < m := by
  have h := ha.lt_iff hb [] []
  rw [List.append_nil, List.append_nil] at h
  rw [h]
  exact or_iff_left fun hnil => List.not_lt_nil _ hnil.2

/-- A separator is the same in every text. -/
theorem cons_lt_cons_same (c : Char) (x y : Str) : c :: x < c :: y ↔ x < y := by
  rw [List.cons_lt_cons_iff]
  constructor
  · rintro (hlt | ⟨-, hlt⟩)
    · exact absurd hlt (Char.lt_irrefl c)
    · exact hlt
  · exact fun hlt => .inr ⟨rfl, hlt⟩

/-- The order of six numbers: the first that differs counts. -/
def TimeFields.Before (f g : TimeFields) : Prop :=
  f.year < g.year ∨ (f.year = g.year ∧ (f.month < g.month ∨ (f.month = g.month ∧
    (f.day < g.day ∨ (f.day = g.day ∧ (f.hour < g.hour ∨ (f.hour = g.hour ∧
      (f.minute < g.minute ∨ (f.minute = g.minute ∧ f.second < g.second)))))))))

/-- The number of a checked field is printed with its width. -/
theorem TimeFields.InRange.isField {f : TimeFields} (h : f.InRange) (hyear : f.year ≤ 9999) :
    IsField (zeroPadded 4 f.year) 4 f.year ∧ IsField (zeroPadded 2 f.month) 2 f.month ∧
      IsField (zeroPadded 2 f.day) 2 f.day ∧ IsField (zeroPadded 2 f.hour) 2 f.hour ∧
      IsField (zeroPadded 2 f.minute) 2 f.minute ∧ IsField (zeroPadded 2 f.second) 2 f.second := by
  obtain ⟨hlow, hmonth, hday, hhour, hminute, hsecond⟩ := h
  refine ⟨?_, ?_, ?_, ?_, ?_, ?_⟩
  all_goals
    apply zeroPadded_isField (by decide)
    · omega
    · omega

/-- The texts of six numbers are ordered as the numbers. -/
theorem TimeFields.text_lt_iff {f g : TimeFields} (hf : f.InRange) (hfyear : f.year ≤ 9999)
    (hg : g.InRange) (hgyear : g.year ≤ 9999) : f.text < g.text ↔ f.Before g := by
  obtain ⟨hy, hmo, hd, hh, hmi, hs⟩ := hf.isField hfyear
  obtain ⟨hy', hmo', hd', hh', hmi', hs'⟩ := hg.isField hgyear
  rw [TimeFields.text, TimeFields.text, timeText, timeText, hy.lt_iff hy', cons_lt_cons_same,
    hmo.lt_iff hmo', cons_lt_cons_same, hd.lt_iff hd', cons_lt_cons_same, hh.lt_iff hh',
    cons_lt_cons_same, hmi.lt_iff hmi', cons_lt_cons_same, hs.lt_iff_value hs']
  rfl

/-- The numbers of two times are ordered as the times. -/
theorem before_fieldsOf_iff (t u : Int) : (fieldsOf t).Before (fieldsOf u) ↔ t < u := by
  have hdates := dayNumber_lt_iff (civil_spec (t / 86400)).1 (civil_spec (u / 86400)).1
  have hdates' := dayNumber_lt_iff (civil_spec (u / 86400)).1 (civil_spec (t / 86400)).1
  rw [dayNumber_civil, dayNumber_civil] at hdates hdates'
  simp only [TimeFields.Before, fieldsOf]
  generalize civil (t / 86400) = d at *
  generalize civil (u / 86400) = e at *
  omega

/-- **The order of the texts.** Two times from 1900 to 9999 are printed, and the texts are in the
order of the alphabet exactly where the times are in theirs. -/
theorem format_order {d e : DateTime} (hdlow : firstSecond ≤ d.timestamp)
    (hdhigh : d.timestamp ≤ lastSecond) (helow : firstSecond ≤ e.timestamp)
    (hehigh : e.timestamp ≤ lastSecond) :
    ∃ s t, d.toFormatTime = .ok s ∧ e.toFormatTime = .ok t ∧ (s < t ↔ d.less e = true) ∧
      (s = t ↔ d.equal e = true) := by
  have hdyear := year_of_bounds hdlow hdhigh
  have heyear := year_of_bounds helow hehigh
  obtain ⟨tm, htm, hshows⟩ := secsToTm_of_year hdyear
  obtain ⟨tm', htm', hshows'⟩ := secsToTm_of_year heyear
  have hordered : ∀ {x y : Int}, (1900 ≤ (civil (x / 86400)).year ∧
      (civil (x / 86400)).year ≤ 9999) → (1900 ≤ (civil (y / 86400)).year ∧
      (civil (y / 86400)).year ≤ 9999) → ((fieldsOf x).text < (fieldsOf y).text ↔ x < y) := by
    intro x y hx hy
    rw [TimeFields.text_lt_iff (fieldsOf_inRange hx.1) hx.2 (fieldsOf_inRange hy.1) hy.2,
      before_fieldsOf_iff]
  refine ⟨(fieldsOf d.timestamp).text, (fieldsOf e.timestamp).text, ?_, ?_, ?_, ?_⟩
  · simp only [DateTime.toFormatTime, htm]
    rw [strftime_eq, hshows.fields_eq]
  · simp only [DateTime.toFormatTime, htm']
    rw [strftime_eq, hshows'.fields_eq]
  · rw [hordered hdyear heyear, DateTime.less, decide_eq_true_iff]
  · rw [DateTime.equal, decide_eq_true_iff]
    constructor
    · -- texts that are equal are in neither order
      intro hsame
      have hnot := (not_congr (hordered hdyear heyear)).1 (by rw [hsame]; exact List.lt_irrefl _)
      have hnot' := (not_congr (hordered heyear hdyear)).1 (by rw [hsame]; exact List.lt_irrefl _)
      omega
    · intro hsame
      rw [hsame]

/-- The last second of a year and the first of the next. -/
theorem format_order_new_year :
    ∃ s t, (DateTime.mk 1704067199).toFormatTime = .ok s ∧
      (DateTime.mk 1704067200).toFormatTime = .ok t ∧
      (s < t ↔ (DateTime.mk 1704067199).less ⟨1704067200⟩ = true) ∧
      (s = t ↔ (DateTime.mk 1704067199).equal ⟨1704067200⟩ = true) :=
  format_order (by decide) (by decide) (by decide) (by decide)

end Ssgx.Time
