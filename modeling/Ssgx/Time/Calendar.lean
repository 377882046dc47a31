import Mathlib.Algebra.Ring.Int.Defs
import Mathlib.Algebra.Ring.Nat
import Ssgx.Support.Gregorian

/-!
# Timestamps and calendar fields

`__secs_to_tm`, `__tm_to_secs`, `__year_to_secs` and `__month_to_secs`, which turn seconds since the
epoch into the fields of a `struct tm` and back. The years are counted from 1900, the months from 0.
`__secs_to_tm` counts days from 2000-03-01, so that the day of a leap year comes last.

`secsToTm_spec` and `tmToSecs_eq` compare both with the calendar, on which they are inverse.
-/

set_option autoImplicit false

namespace Ssgx.Time

open Ssgx.Support

/-! ## The functions -/

/-- The fields of a `struct tm`. -/
structure Tm where
  sec : Int
  min : Int
  hour : Int
  mday : Int
  mon : Int
  year : Int
  wday : Int
  yday : Int
deriving DecidableEq

/-- `INT_MAX` -/
def intMax : Int := 2147483647

/-- `INT_MIN` -/
def intMin : Int := -2147483648

/-- `LEAPOCH`: 2000-03-01. -/
def leapoch : Int := 946684800 + 86400 * (31 + 29)

/-- `DAYS_PER_400Y` -/
def daysPer400Y : Int := 365 * 400 + 97

/-- `DAYS_PER_100Y` -/
def daysPer100Y : Int := 365 * 100 + 24

/-- `DAYS_PER_4Y` -/
def daysPer4Y : Int := 365 * 4 + 1

/-- `/` and `%`, with the step that makes a negative remainder positive. -/
def divDown (a n : Int) : Int × Int :=
  let quot := a.tdiv n
  let rem := a.tmod n
  if rem < 0 then (quot - 1, rem + n) else (quot, rem)

/-- `/`, with the step that keeps the last day of a leap cycle in the cycle. -/
def divCapped (a n count : Int) : Int :=
  let quot := a.tdiv n
  if quot = count then quot - 1 else quot

/-- Where a day is in the cycles of the leap years. -/
structure Cycles where
  qcCycles : Int
  cCycles : Int
  qCycles : Int
  remyears : Int
  remdays : Int

/-- The part of `__secs_to_tm` that takes days since `LEAPOCH` apart. -/
def cyclesOf (days : Int) : Cycles :=
  let (qcCycles, remdays) := divDown days daysPer400Y
  let cCycles := divCapped remdays daysPer100Y 4
  let remdays := remdays - cCycles * daysPer100Y
  let qCycles := divCapped remdays daysPer4Y 25
  let remdays := remdays - qCycles * daysPer4Y
  let remyears := divCapped remdays 365 4
  let remdays := remdays - remyears * 365
  ⟨qcCycles, cCycles, qCycles, remyears, remdays⟩

/-- `days_in_month`, from March on. -/
def daysInMonthFromMarch : List Int := [31, 30, 31, 30, 31, 31, 30, 31, 30, 31, 31, 29]

/-- The loop of `__secs_to_tm` over the months. -/
def monthLoop : List Int → Int → Int → Int × Int
  | [], months, remdays => (months, remdays)
  | days :: rest, months, remdays =>
      if days ≤ remdays then monthLoop rest (months + 1) (remdays - days) else (months, remdays)

/-- `__secs_to_tm`; none where it returns -1. -/
def secsToTm (t : Int) : Option Tm :=
  if t < intMin * 31622400 ∨ t > intMax * 31622400 then none
  else
    let (days, remsecs) := divDown (t - leapoch) 86400
    let wday := (3 + days).tmod 7
    let wday := if wday < 0 then wday + 7 else wday
    let k := cyclesOf days
    let leap : Int := if k.remyears = 0 ∧ (k.qCycles ≠ 0 ∨ k.cCycles = 0) then 1 else 0
    let yday := k.remdays + 31 + 28 + leap
    let yday := if yday ≥ 365 + leap then yday - (365 + leap) else yday
    let years := k.remyears + 4 * k.qCycles + 100 * k.cCycles + 400 * k.qcCycles
    let (months, remdays) := monthLoop daysInMonthFromMarch 0 k.remdays
    let (months, years) := if months ≥ 10 then (months - 12, years + 1) else (months, years)
    if years + 100 > intMax ∨ years + 100 < intMin then none
    else
      some
        { year := years + 100
          mon := months + 2
          mday := remdays + 1
          wday := wday
          yday := yday
          hour := remsecs.tdiv 3600
          min := (remsecs.tdiv 60).tmod 60
          sec := remsecs.tmod 60 }

/-- `__year_to_secs`: the seconds from the epoch to a year, and whether it is a leap year. -/
def yearToSecs (year : Int) : Int × Bool :=
  -- the comparison is one of unsigned numbers
  if (year - 2) % 2 ^ 64 ≤ 136 then
    let leaps := (year - 68) / 4
    if (year - 68) % 4 = 0 then (31536000 * (year - 70) + 86400 * (leaps - 1), true)
    else (31536000 * (year - 70) + 86400 * leaps, false)
  else
    let (cycles, rem) := divDown (year - 100) 400
    let (isLeap, centuries, leaps) : Bool × Int × Int :=
      if rem = 0 then (true, 0, 0)
      else
        let (centuries, rem) : Int × Int :=
          if rem ≥ 200 then if rem ≥ 300 then (3, rem - 300) else (2, rem - 200)
          else if rem ≥ 100 then (1, rem - 100) else (0, rem)
        if rem = 0 then (false, centuries, 0) else (decide (rem % 4 = 0), centuries, rem / 4)
    let leaps := leaps + 97 * cycles + 24 * centuries - if isLeap then 1 else 0
    ((year - 100) * 31536000 + leaps * 86400 + 946684800 + 86400, isLeap)

/-- `secs_through_month` -/
def secsThroughMonth : List Int :=
  [0, 31 * 86400, 59 * 86400, 90 * 86400, 120 * 86400, 151 * 86400, 181 * 86400, 212 * 86400,
    243 * 86400, 273 * 86400, 304 * 86400, 334 * 86400]

/-- `__month_to_secs` -/
def monthToSecs (month : Int) (isLeap : Bool) : Int :=
  let t := secsThroughMonth.getD month.toNat 0
  if isLeap ∧ month ≥ 2 then t + 86400 else t

/-- `__tm_to_secs` -/
def tmToSecs (tm : Tm) : Int :=
  let (year, month) :=
    if tm.mon ≥ 12 ∨ tm.mon < 0 then
      let (adj, month) := divDown tm.mon 12
      (tm.year + adj, month)
    else (tm.year, tm.mon)
  let (t, isLeap) := yearToSecs year
  t + monthToSecs month isLeap + 86400 * (tm.mday - 1) + 3600 * tm.hour + 60 * tm.min + tm.sec

/-! ## Division -/

/-- The step makes truncating division one that rounds down. -/
theorem divDown_eq (a : Int) {n : Int} (hn : 0 < n) : divDown a n = (a / n, a % n) := by
  have hdiv : n * a.tdiv n + a.tmod n = a := Int.mul_tdiv_add_tmod a n
  have hlow : -n < a.tmod n := Int.lt_tmod_of_pos a hn
  have hhigh : a.tmod n < n := Int.tmod_lt_of_pos a hn
  simp only [divDown]
  split_ifs with hneg
  · have hunique := (Int.ediv_emod_unique (a := a) (r := a.tmod n + n) (q := a.tdiv n - 1) hn).2
      ⟨by rw [Int.mul_sub]; omega, by omega, by omega⟩
    rw [hunique.1, hunique.2]
  · have hunique := (Int.ediv_emod_unique (a := a) (r := a.tmod n) (q := a.tdiv n) hn).2
      ⟨by omega, by omega, hhigh⟩
    rw [hunique.1, hunique.2]

/-- The step puts the last day of a cycle into its last part. -/
theorem divCapped_eq {a n : Int} (ha : 0 ≤ a) (count : Int) :
    divCapped a n count = if a / n = count then a / n - 1 else a / n := by
  rw [divCapped, Int.tdiv_eq_ediv_of_nonneg ha]

/-! ## Days -/

/-- The first year of the cycles of a day, which begins in March. -/
def Cycles.year (k : Cycles) : Int :=
  2000 + k.remyears + 4 * k.qCycles + 100 * k.cCycles + 400 * k.qcCycles

/-- **The cycles of a day.** They give the day back, and a day behind the 365 of its year is one of
a leap year. -/
structure Cycles.Of (k : Cycles) (days : Int) : Prop where
  days_eq : days = 146097 * k.qcCycles + 36524 * k.cCycles + 1461 * k.qCycles + 365 * k.remyears +
    k.remdays
  century : 0 ≤ k.cCycles ∧ k.cCycles ≤ 3
  fourYears : 0 ≤ k.qCycles ∧ k.qCycles ≤ 24
  remyears : 0 ≤ k.remyears ∧ k.remyears ≤ 3
  remdays : 0 ≤ k.remdays ∧ k.remdays ≤ 365
  last : k.remdays = 365 → k.remyears = 3 ∧ (k.qCycles < 24 ∨ k.cCycles = 3)

theorem cyclesOf_spec (days : Int) : (cyclesOf days).Of days := by
  have hnonneg : 0 ≤ days % 146097 := Int.emod_nonneg days (by decide)
  have hlt : days % 146097 < 146097 := Int.emod_lt_of_pos days (by decide)
  have hdays : 146097 * (days / 146097) + days % 146097 = days := Int.mul_ediv_add_emod days 146097
  have hcycles : divDown days daysPer400Y = (days / 146097, days % 146097) :=
    divDown_eq days (by decide)
  simp only [cyclesOf, hcycles]
  generalize days / 146097 = qc at hdays
  generalize days % 146097 = rem at hnonneg hlt hdays
  -- the last century of a cycle has a day more, so the quotient is capped
  have hcentury := divCapped_eq (n := daysPer100Y) hnonneg 4
  generalize divCapped rem daysPer100Y 4 = c at hcentury
  obtain ⟨hc, hrem, hremlt⟩ : (0 ≤ c ∧ c ≤ 3) ∧ 0 ≤ rem - c * daysPer100Y ∧
      (rem - c * daysPer100Y < 36524 ∨ c = 3 ∧ rem - c * daysPer100Y = 36524) := by
    simp only [daysPer100Y] at hcentury ⊢
    split_ifs at hcentury <;> omega
  -- the last four years of a century have a day less, unless the century has one more
  have hfour := divCapped_eq (n := daysPer4Y) hrem 25
  generalize divCapped (rem - c * daysPer100Y) daysPer4Y 25 = q at hfour
  obtain ⟨hq, hrem', hremlt'⟩ : (0 ≤ q ∧ q ≤ 24) ∧
      0 ≤ rem - c * daysPer100Y - q * daysPer4Y ∧
      rem - c * daysPer100Y - q * daysPer4Y ≤ 1460 ∧
      (rem - c * daysPer100Y - q * daysPer4Y = 1460 → q < 24 ∨ c = 3) := by
    simp only [daysPer4Y] at hfour ⊢
    split_ifs at hfour <;> omega
  have hyears := divCapped_eq (n := 365) hrem' 4
  generalize divCapped (rem - c * daysPer100Y - q * daysPer4Y) 365 4 = y at hyears
  simp only [daysPer100Y, daysPer4Y] at hrem' hremlt' hyears ⊢
  constructor
  · simp only
    omega
  · exact hc
  · exact hq
  all_goals
    simp only
    split_ifs at hyears <;> omega

/-- A year of the cycles begins 306 days before the next calendar year. -/
theorem Cycles.Of.dayNumber_march {k : Cycles} {days : Int} (h : k.Of days) :
    daysBeforeYear (k.year + 1) - 306 - daysBeforeYear 1970 + k.remdays = days + 11017 := by
  obtain ⟨hdays, hc, hq, hy, -, -⟩ := h
  simp only [daysBeforeYear, Cycles.year]
  omega

/-- The last day of a year of 366 days is in February of a leap year. -/
theorem Cycles.Of.isLeap {k : Cycles} {days : Int} (h : k.Of days) (hlast : k.remdays = 365) :
    IsLeap (k.year + 1) := by
  obtain ⟨-, hc, hq, hy, -, himp⟩ := h
  obtain ⟨hyear, hcase⟩ := himp hlast
  simp only [IsLeap, Cycles.year]
  omega

/-! ## Months -/

/-- The date at a number of months after March. -/
def marchDate (year months remdays : Int) : Date :=
  if months ≥ 10 then ⟨year + 1, months - 9, remdays + 1⟩ else ⟨year, months + 3, remdays + 1⟩

/-- The date of a month and the days left in it, in a year that begins in March. -/
def MonthFound (year remdays : Int) (found : Int × Int) : Prop :=
  (marchDate year found.1 found.2).Real ∧
    dayNumber (marchDate year found.1 found.2) =
      daysBeforeYear (year + 1) - 306 - daysBeforeYear 1970 + remdays

theorem monthLoop_cons {P : Int × Int → Prop} {days months remdays : Int} {rest : List Int}
    (hstop : remdays < days → P (months, remdays))
    (hgo : days ≤ remdays → P (monthLoop rest (months + 1) (remdays - days))) :
    P (monthLoop (days :: rest) months remdays) := by
  rw [monthLoop]
  split_ifs with hle
  · exact hgo hle
  · exact hstop (Int.not_le.1 hle)

/-- **The loop finds the month.** -/
theorem monthLoop_spec {year remdays : Int} (hlow : 0 ≤ remdays) (hhigh : remdays ≤ 365)
    (hleap : remdays = 365 → IsLeap (year + 1)) :
    MonthFound year remdays (monthLoop daysInMonthFromMarch 0 remdays) := by
  have hsucc := daysBeforeYear_succ year
  have hfebruary : remdays < 337 + if IsLeap (year + 1) then 29 else 28 := by
    split_ifs with hyear
    · omega
    · have hne : remdays ≠ 365 := fun heq => hyear (hleap heq)
      omega
  simp only [daysInMonthFromMarch]
  repeat' refine monthLoop_cons (fun hlt => ?_) (fun hle => ?_)
  -- the last goal is the end of the table, which no day reaches
  rotate_right
  · omega
  all_goals
    refine ⟨⟨?_, ?_, ?_, ?_⟩, ?_⟩ <;>
      simp [marchDate, daysInMonth, dayNumber, daysBeforeMonth] <;> omega

/-! ## Seconds to fields -/

/-- The date of the fields. -/
def Tm.date (tm : Tm) : Date := ⟨tm.year + 1900, tm.mon + 1, tm.mday⟩

/-- **The fields of a time.** The date is that of the day in the calendar, and the rest of the day
is in hours, minutes and seconds. -/
structure Tm.Shows (tm : Tm) (t : Int) : Prop where
  date : tm.date = civil (t / 86400)
  hour : tm.hour = t % 86400 / 3600
  min : tm.min = t % 3600 / 60
  sec : tm.sec = t % 60
  wday : tm.wday = (t / 86400 + 4) % 7

/-- `__secs_to_tm` gives the fields of every time whose year, counted from 1900, is an `int`. -/
theorem secsToTm_spec {t : Int} (hlow : intMin * 31622400 ≤ t) (hhigh : t ≤ intMax * 31622400)
    (hyear : intMin ≤ (civil (t / 86400)).year - 1900 ∧
      (civil (t / 86400)).year - 1900 ≤ intMax) :
    ∃ tm, secsToTm t = some tm ∧ tm.Shows t := by
  -- the days are counted from the first of March of a leap year
  have hdays : divDown (t - leapoch) 86400 = (t / 86400 - 11017, t % 86400) := by
    rw [divDown_eq _ (by decide)]
    simp only [leapoch]
    refine Prod.ext ?_ ?_
    · simp only
      omega
    · simp only
      omega
  have hrange : ¬ (t < intMin * 31622400 ∨ t > intMax * 31622400) := by omega
  have hk := cyclesOf_spec (t / 86400 - 11017)
  simp only [secsToTm, if_neg hrange, hdays]
  generalize cyclesOf (t / 86400 - 11017) = k at hk
  have hfound : MonthFound k.year k.remdays (monthLoop daysInMonthFromMarch 0 k.remdays) :=
    monthLoop_spec hk.remdays.1 hk.remdays.2 hk.isLeap
  rw [MonthFound, hk.dayNumber_march] at hfound
  rcases hloop : monthLoop daysInMonthFromMarch 0 k.remdays with ⟨months, remdays⟩
  rw [hloop] at hfound
  obtain ⟨hreal, hnumber⟩ := hfound
  have hcivil : marchDate k.year months remdays = civil (t / 86400) := by
    rw [eq_civil hreal, hnumber]
    congr 1
    omega
  -- the weekday is that of the first day and the days since
  have hwday : (if (3 + (t / 86400 - 11017)).tmod 7 < 0 then
      (3 + (t / 86400 - 11017)).tmod 7 + 7 else (3 + (t / 86400 - 11017)).tmod 7) =
        (t / 86400 + 4) % 7 := by
    have hdown := congrArg Prod.snd (divDown_eq (3 + (t / 86400 - 11017)) (n := 7) (by decide))
    simp only [divDown, apply_ite Prod.snd] at hdown
    rw [hdown]
    omega
  have hclock : (t % 86400).tdiv 3600 = t % 86400 / 3600 ∧
      ((t % 86400).tdiv 60).tmod 60 = t % 3600 / 60 ∧ (t % 86400).tmod 60 = t % 60 := by
    have hnonneg : 0 ≤ t % 86400 := Int.emod_nonneg t (by decide)
    rw [Int.tdiv_eq_ediv_of_nonneg hnonneg, Int.tdiv_eq_ediv_of_nonneg hnonneg,
      Int.tmod_eq_emod_of_nonneg (by omega), Int.tmod_eq_emod_of_nonneg hnonneg]
    omega
  rw [← hcivil] at hyear
  have hyears : k.remyears + 4 * k.qCycles + 100 * k.cCycles + 400 * k.qcCycles =
      k.year - 2000 := by
    simp only [Cycles.year]
    omega
  rw [hyears, hwday]
  -- January and February are months of the next year
  by_cases hwinter : months ≥ 10
  · simp only [marchDate, if_pos hwinter] at hyear hcivil ⊢
    rw [if_neg (by omega)]
    refine ⟨_, rfl, ?_, hclock.1, hclock.2.1, hclock.2.2, rfl⟩
    rw [← hcivil]
    simp only [Tm.date, Date.mk.injEq, and_true]
    omega
  · simp only [marchDate, if_neg hwinter] at hyear hcivil ⊢
    rw [if_neg (by omega)]
    refine ⟨_, rfl, ?_, hclock.1, hclock.2.1, hclock.2.2, rfl⟩
    rw [← hcivil]
    simp only [Tm.date, Date.mk.injEq, and_true]
    omega

/-- The years from 1900 to 9999 are among them. -/
theorem secsToTm_of_year {t : Int} (hyear : 1900 ≤ (civil (t / 86400)).year ∧
    (civil (t / 86400)).year ≤ 9999) : ∃ tm, secsToTm t = some tm ∧ tm.Shows t := by
  obtain ⟨hreal, hnumber⟩ := civil_spec (t / 86400)
  have hbounds := dayNumber_bounds hreal
  have hlow : daysBeforeYear 1900 ≤ daysBeforeYear (civil (t / 86400)).year :=
    daysBeforeYear_mono hyear.1
  have hhigh : daysBeforeYear ((civil (t / 86400)).year + 1) ≤ daysBeforeYear 10000 :=
    daysBeforeYear_mono (by omega)
  have h1900 : daysBeforeYear 1900 = 693595 := rfl
  have h1970 : daysBeforeYear 1970 = 719162 := rfl
  have h10000 : daysBeforeYear 10000 = 3652059 := rfl
  apply secsToTm_spec
  · simp only [intMin]
    omega
  · simp only [intMax]
    omega
  · simp only [intMin, intMax]
    omega

/-! ## Fields to seconds -/

/-- The comparison of unsigned numbers in `__year_to_secs`. -/
theorem fastYear_iff {year : Int} (hlow : intMin ≤ year) (hhigh : year ≤ intMax) :
    (year - 2) % 2 ^ 64 ≤ 136 ↔ 2 ≤ year ∧ year ≤ 138 := by
  simp only [intMin] at hlow
  simp only [intMax] at hhigh
  omega

/-- The comparisons in `__year_to_secs` count the centuries of a cycle. -/
theorem centuries_eq {rem : Int} (hnonneg : 0 ≤ rem) (hlt : rem < 400) :
    (if rem ≥ 200 then if rem ≥ 300 then (3, rem - 300) else (2, rem - 200)
      else if rem ≥ 100 then (1, rem - 100) else (0, rem) : Int × Int) =
        (rem / 100, rem % 100) := by
  split_ifs with h200 h300 h100
  all_goals
    refine Prod.ext ?_ ?_
    · simp only
      omega
    · simp only
      omega

/-- `__year_to_secs` counts the days of the calendar. -/
theorem yearToSecs_eq {year : Int} (hlow : intMin ≤ year) (hhigh : year ≤ intMax) :
    yearToSecs year = (86400 * (daysBeforeYear (year + 1900) - daysBeforeYear 1970),
      decide (IsLeap (year + 1900))) := by
  have hdown : divDown (year - 100) 400 = ((year - 100) / 400, (year - 100) % 400) :=
    divDown_eq _ (by decide)
  have hcycle : year + 1900 = 400 * ((year - 100) / 400 + 5) + (year - 100) % 400 := by omega
  have hleap : ∀ b : Bool, (b = true ↔ IsLeap ((year - 100) % 400)) →
      b = decide (IsLeap (year + 1900)) := by
    intro b hb
    rw [Bool.eq_iff_iff, hb, decide_eq_true_iff, hcycle, isLeap_cycles]
  have hnonneg : 0 ≤ (year - 100) % 400 := Int.emod_nonneg _ (by decide)
  have hlt : (year - 100) % 400 < 400 := Int.emod_lt_of_pos _ (by decide)
  have hbefore := daysBeforeYear_cycles ((year - 100) / 400 + 5) ((year - 100) % 400)
  rw [← hcycle] at hbefore
  rw [hbefore]
  simp only [yearToSecs, hdown, fastYear_iff hlow hhigh, centuries_eq hnonneg hlt]
  generalize (year - 100) / 400 = cycles at *
  generalize (year - 100) % 400 = rem at *
  obtain rfl : year = 400 * cycles + rem + 100 := by omega
  -- a cycle starts with a leap year, and no later century does
  split_ifs with hfast h4 h0 h100 hleap4
  all_goals try simp only [decide_eq_true_eq, not_true_eq_false] at *
  all_goals
    refine Prod.ext ?_ (hleap _ ?_)
    · simp only [daysBeforeYear]
      omega
    · simp only [IsLeap]
      simp
      omega

/-- `__month_to_secs` counts the days of the months. -/
theorem monthToSecs_eq {month : Int} (hpos : 1 ≤ month) (hle : month ≤ 12) (year : Int) :
    monthToSecs (month - 1) (decide (IsLeap year)) = 86400 * daysBeforeMonth year month := by
  rcases month_cases hpos hle with
    rfl | rfl | rfl | rfl | rfl | rfl | rfl | rfl | rfl | rfl | rfl | rfl <;>
  by_cases hleap : IsLeap year <;>
  simp [monthToSecs, secsThroughMonth, daysBeforeMonth, hleap]

/-- **`__tm_to_secs` counts the days to the date**, also where the day is behind the end of its
month. -/
theorem tmToSecs_eq {tm : Tm} (hyear : intMin ≤ tm.year ∧ tm.year ≤ intMax)
    (hmon : 0 ≤ tm.mon ∧ tm.mon < 12) :
    tmToSecs tm = 86400 * dayNumber tm.date + 3600 * tm.hour + 60 * tm.min + tm.sec := by
  have hmonth : monthToSecs (tm.mon + 1 - 1) (decide (IsLeap (tm.year + 1900))) =
      86400 * daysBeforeMonth (tm.year + 1900) (tm.mon + 1) :=
    monthToSecs_eq (by omega) (by omega) _
  rw [Int.add_sub_cancel] at hmonth
  simp only [tmToSecs, if_neg (by omega : ¬ (tm.mon ≥ 12 ∨ tm.mon < 0)),
    yearToSecs_eq hyear.1 hyear.2, hmonth, dayNumber, Tm.date]
  omega

/-- **The functions are inverse.** The seconds of the fields of a time are the time. -/
theorem Tm.Shows.tmToSecs {tm : Tm} {t : Int} (h : tm.Shows t)
    (hyear : intMin ≤ tm.year ∧ tm.year ≤ intMax) : tmToSecs tm = t := by
  have hreal := (civil_spec (t / 86400)).1
  rw [← h.date] at hreal
  have hpos : 1 ≤ tm.mon + 1 := hreal.month_pos
  have hle : tm.mon + 1 ≤ 12 := hreal.month_le
  have hnumber : dayNumber tm.date = t / 86400 := by
    rw [h.date, dayNumber_civil]
  rw [tmToSecs_eq hyear (by omega), hnumber, h.hour, h.min, h.sec]
  omega

/-- Fields of a date of the calendar and of a time of the day are those of their seconds. -/
theorem Tm.Shows.of_real {tm : Tm} {t : Int} (h : tm.Shows t) {d : Date} {hour min sec : Int}
    (hreal : d.Real) (hhour : 0 ≤ hour ∧ hour ≤ 23) (hmin : 0 ≤ min ∧ min ≤ 59)
    (hsec : 0 ≤ sec ∧ sec ≤ 59)
    (ht : t = 86400 * dayNumber d + 3600 * hour + 60 * min + sec) :
    tm.date = d ∧ tm.hour = hour ∧ tm.min = min ∧ tm.sec = sec := by
  have hquot : t / 86400 = dayNumber d := by omega
  refine ⟨?_, ?_, ?_, ?_⟩
  · rw [h.date, hquot, ← eq_civil hreal]
  · rw [h.hour]
    omega
  · rw [h.min]
    omega
  · rw [h.sec]
    omega

end Ssgx.Time
