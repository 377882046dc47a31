import Mathlib.Tactic.TypeStar
import Mathlib.Tactic.SplitIfs

/-!
# The proleptic Gregorian calendar

A date is a year, a month and a day. `Date.next` and `Date.previous` go through the calendar day by
day, and `civil n` is the date that they reach from 1970-01-01 in `n` days, backwards where `n` is
negative.

`dayNumber` is the closed form. It goes up by one with every day (`dayNumber_next`), is `n` at
`civil n` (`dayNumber_civil`) and tells dates apart (`dayNumber_injective`), so a date with the
number `n` is `civil n` (`eq_civil`).
-/

set_option autoImplicit false

namespace Ssgx.Support

/-! ## Dates -/

/-- A year of 366 days. -/
def IsLeap (year : Int) : Prop := year % 4 = 0 ∧ (year % 100 ≠ 0 ∨ year % 400 = 0)

instance (year : Int) : Decidable (IsLeap year) := inferInstanceAs (Decidable (_ ∧ _))

/-- The days of a month; months are counted from 1. -/
def daysInMonth (year month : Int) : Int :=
  if month = 2 then (if IsLeap year then 29 else 28)
  else if month = 4 ∨ month = 6 ∨ month = 9 ∨ month = 11 then 30
  else 31

/-- A year, a month and a day, not always of the calendar. -/
structure Date where
  year : Int
  month : Int
  day : Int
deriving DecidableEq

/-- The epoch. -/
def epoch : Date := ⟨1970, 1, 1⟩

namespace Date

/-- A date of the calendar. -/
structure Real (d : Date) : Prop where
  month_pos : 1 ≤ d.month
  month_le : d.month ≤ 12
  day_pos : 1 ≤ d.day
  day_le : d.day ≤ daysInMonth d.year d.month

/-- The day after. -/
def next (d : Date) : Date :=
  if d.day < daysInMonth d.year d.month then { d with day := d.day + 1 }
  else if d.month < 12 then { d with month := d.month + 1, day := 1 }
  else ⟨d.year + 1, 1, 1⟩

/-- The day before. -/
def previous (d : Date) : Date :=
  if 1 < d.day then { d with day := d.day - 1 }
  else if 1 < d.month then ⟨d.year, d.month - 1, daysInMonth d.year (d.month - 1)⟩
  else ⟨d.year - 1, 12, 31⟩

/-- A date so many days after. -/
def after : Nat → Date → Date
  | 0, d => d
  | n + 1, d => (after n d).next

/-- A date so many days before. -/
def before : Nat → Date → Date
  | 0, d => d
  | n + 1, d => (before n d).previous

end Date

/-- The date of a day, counted from the epoch. -/
def civil : Int → Date
  | .ofNat n => epoch.after n
  | .negSucc n => epoch.before (n + 1)

theorem daysInMonth_bounds (year month : Int) :
    28 ≤ daysInMonth year month ∧ daysInMonth year month ≤ 31 := by
  simp only [daysInMonth]
  split_ifs <;> omega

namespace Date

theorem Real.next {d : Date} (h : d.Real) : d.next.Real := by
  have hpos := h.month_pos
  have hle := h.month_le
  have hday := h.day_pos
  simp only [Date.next]
  split_ifs with hlast hmonth
  · exact ⟨hpos, hle, by show 1 ≤ d.day + 1; omega,
      by show d.day + 1 ≤ daysInMonth d.year d.month; omega⟩
  · have hbounds := daysInMonth_bounds d.year (d.month + 1)
    exact ⟨by show 1 ≤ d.month + 1; omega, by show d.month + 1 ≤ 12; omega, Int.le_refl 1,
      by show 1 ≤ daysInMonth d.year (d.month + 1); omega⟩
  · have hbounds := daysInMonth_bounds (d.year + 1) 1
    exact ⟨Int.le_refl 1, by show (1 : Int) ≤ 12; omega, Int.le_refl 1,
      by show 1 ≤ daysInMonth (d.year + 1) 1; omega⟩

theorem Real.previous {d : Date} (h : d.Real) : d.previous.Real := by
  have hpos := h.month_pos
  have hle := h.month_le
  have hday := h.day_le
  simp only [Date.previous]
  split_ifs with hfirst hmonth
  · exact ⟨hpos, hle, by show 1 ≤ d.day - 1; omega,
      by show d.day - 1 ≤ daysInMonth d.year d.month; omega⟩
  · have hbounds := daysInMonth_bounds d.year (d.month - 1)
    exact ⟨by show 1 ≤ d.month - 1; omega, by show d.month - 1 ≤ 12; omega,
      by show 1 ≤ daysInMonth d.year (d.month - 1); omega, Int.le_refl _⟩
  · exact ⟨by show (1 : Int) ≤ 12; omega, Int.le_refl 12, by show (1 : Int) ≤ 31; omega,
      Int.le_refl 31⟩

end Date

/-! ## The number of a day -/

/-- The days of the years before a year, counted from the year 1. -/
def daysBeforeYear (year : Int) : Int :=
  365 * (year - 1) + (year - 1) / 4 - (year - 1) / 100 + (year - 1) / 400

/-- The days of the months before a month. -/
def daysBeforeMonth (year month : Int) : Int :=
  (match month with
    | 1 => 0
    | 2 => 31
    | 3 => 59
    | 4 => 90
    | 5 => 120
    | 6 => 151
    | 7 => 181
    | 8 => 212
    | 9 => 243
    | 10 => 273
    | 11 => 304
    | _ => 334) +
    if IsLeap year ∧ 2 < month then 1 else 0

/-- The days from the epoch to a date. -/
def dayNumber (d : Date) : Int :=
  daysBeforeYear d.year - daysBeforeYear 1970 + daysBeforeMonth d.year d.month + (d.day - 1)

/-- A year has 365 days, or 366. -/
theorem daysBeforeYear_succ (year : Int) :
    daysBeforeYear (year + 1) = daysBeforeYear year + 365 + if IsLeap year then 1 else 0 := by
  simp only [daysBeforeYear, IsLeap]
  split_ifs <;> omega

/-- The calendar repeats after 400 years. -/
theorem daysBeforeYear_cycles (cycles year : Int) :
    daysBeforeYear (400 * cycles + year) = 146097 * cycles + daysBeforeYear year := by
  have h4 : (400 * cycles + year - 1) / 4 = 100 * cycles + (year - 1) / 4 := by omega
  have h100 : (400 * cycles + year - 1) / 100 = 4 * cycles + (year - 1) / 100 := by omega
  have h400 : (400 * cycles + year - 1) / 400 = cycles + (year - 1) / 400 := by omega
  simp only [daysBeforeYear]
  omega

theorem isLeap_cycles (cycles year : Int) : IsLeap (400 * cycles + year) ↔ IsLeap year := by
  simp only [IsLeap]
  omega

theorem daysBeforeYear_mono {y z : Int} (h : y ≤ z) : daysBeforeYear y ≤ daysBeforeYear z := by
  simp only [daysBeforeYear]
  omega

/-- The twelve months. -/
theorem month_cases {month : Int} (hpos : 1 ≤ month) (hle : month ≤ 12) :
    month = 1 ∨ month = 2 ∨ month = 3 ∨ month = 4 ∨ month = 5 ∨ month = 6 ∨ month = 7 ∨
      month = 8 ∨ month = 9 ∨ month = 10 ∨ month = 11 ∨ month = 12 := by
  omega

theorem daysBeforeMonth_succ (year : Int) {month : Int} (hpos : 1 ≤ month) (hlt : month < 12) :
    daysBeforeMonth year (month + 1) = daysBeforeMonth year month + daysInMonth year month := by
  rcases month_cases hpos (Int.le_of_lt hlt) with
    rfl | rfl | rfl | rfl | rfl | rfl | rfl | rfl | rfl | rfl | rfl | rfl <;>
  by_cases hleap : IsLeap year <;> simp [daysBeforeMonth, daysInMonth, hleap] at hlt ⊢

/-- The months behind a month come after its last day. -/
theorem daysBeforeMonth_add_le (year : Int) {month : Int} (hpos : 1 ≤ month) (k : Nat)
    (hle : month + 1 + k ≤ 12) :
    daysBeforeMonth year month + daysInMonth year month ≤
      daysBeforeMonth year (month + 1 + k) := by
  induction k with
  | zero => exact Int.le_of_eq (by
      rw [Int.ofNat_zero, Int.add_zero, daysBeforeMonth_succ year hpos (by omega)])
  | succ k ih =>
      have hprevious := ih (by omega)
      have hbounds := daysInMonth_bounds year (month + 1 + k)
      have hstep : daysBeforeMonth year (month + 1 + k + 1) =
          daysBeforeMonth year (month + 1 + k) + daysInMonth year (month + 1 + k) :=
        daysBeforeMonth_succ year (by omega) (by omega)
      rw [Int.natCast_succ, ← Int.add_assoc, hstep]
      omega

/-- The day of a month is behind the earlier months and within the year. -/
theorem dayOfYear_bounds {d : Date} (h : d.Real) :
    daysBeforeMonth d.year d.month + (d.day - 1) ≥ 0 ∧
      daysBeforeMonth d.year d.month + (d.day - 1) < 365 + if IsLeap d.year then 1 else 0 := by
  have hday := h.day_pos
  have hle := h.day_le
  rcases month_cases h.month_pos h.month_le with
    hm | hm | hm | hm | hm | hm | hm | hm | hm | hm | hm | hm <;>
  by_cases hleap : IsLeap d.year <;>
  simp [hm, daysBeforeMonth, daysInMonth, hleap] at hle ⊢ <;> omega

/-- The number of a date is between those of its year and of the next. -/
theorem dayNumber_bounds {d : Date} (h : d.Real) :
    daysBeforeYear d.year - daysBeforeYear 1970 ≤ dayNumber d ∧
      dayNumber d < daysBeforeYear (d.year + 1) - daysBeforeYear 1970 := by
  have hbounds := dayOfYear_bounds h
  rw [daysBeforeYear_succ]
  simp only [dayNumber]
  omega

theorem dayNumber_epoch : dayNumber epoch = 0 := rfl

/-- **The day after has the next number.** -/
theorem dayNumber_next {d : Date} (h : d.Real) : dayNumber d.next = dayNumber d + 1 := by
  have hle := h.day_le
  simp only [Date.next]
  split_ifs with hlast hmonth
  · show daysBeforeYear d.year - daysBeforeYear 1970 + daysBeforeMonth d.year d.month +
      (d.day + 1 - 1) = dayNumber d + 1
    simp only [dayNumber]
    omega
  · show daysBeforeYear d.year - daysBeforeYear 1970 + daysBeforeMonth d.year (d.month + 1) +
      (1 - 1) = dayNumber d + 1
    rw [daysBeforeMonth_succ d.year h.month_pos hmonth]
    simp only [dayNumber]
    omega
  · have hdecember : d.month = 12 := by
      have := h.month_le
      omega
    show daysBeforeYear (d.year + 1) - daysBeforeYear 1970 + daysBeforeMonth (d.year + 1) 1 +
      (1 - 1) = dayNumber d + 1
    have hfirst : daysBeforeMonth (d.year + 1) 1 = 0 := by simp [daysBeforeMonth]
    rw [hdecember] at hlast hle
    rw [daysBeforeYear_succ, hfirst, dayNumber, hdecember]
    by_cases hleap : IsLeap d.year <;>
      simp [daysBeforeMonth, daysInMonth, hleap] at hlast hle ⊢ <;> omega

/-- The calendar goes back the way it came. -/
theorem Date.next_previous {d : Date} (h : d.Real) : d.previous.next = d := by
  have hpos := h.month_pos
  have hle := h.month_le
  have hday := h.day_pos
  have hdayle := h.day_le
  rcases d with ⟨year, month, day⟩
  simp only at hpos hle hday hdayle
  simp only [Date.previous]
  split_ifs with hfirst hmonth
  · rw [Date.next, if_pos (by show day - 1 < daysInMonth year month; omega)]
    simp
  · rw [Date.next, if_neg (Int.lt_irrefl _), if_pos (by show month - 1 < 12; omega)]
    simp only [Date.mk.injEq, true_and]
    omega
  · rw [Date.next, if_neg (by simp [daysInMonth]), if_neg (Int.lt_irrefl 12)]
    simp only [Date.mk.injEq]
    omega

/-- **The day before has the number before.** -/
theorem dayNumber_previous {d : Date} (h : d.Real) : dayNumber d.previous = dayNumber d - 1 := by
  have hnext := dayNumber_next h.previous
  rw [Date.next_previous h] at hnext
  omega

theorem epoch_real : epoch.Real := ⟨by decide, by decide, by decide, by decide⟩

/-- **The date of a day is of the calendar and has the number of that day.** -/
theorem civil_spec (n : Int) : (civil n).Real ∧ dayNumber (civil n) = n := by
  cases n with
  | ofNat n =>
      show (epoch.after n).Real ∧ dayNumber (epoch.after n) = (n : Int)
      induction n with
      | zero => exact ⟨epoch_real, dayNumber_epoch⟩
      | succ n ih =>
          refine ⟨ih.1.next, ?_⟩
          rw [Date.after, dayNumber_next ih.1, ih.2, Int.natCast_succ]
  | negSucc n =>
      have hback : ∀ k : Nat,
          (epoch.before k).Real ∧ dayNumber (epoch.before k) = -(k : Int) := by
        intro k
        induction k with
        | zero => exact ⟨epoch_real, dayNumber_epoch⟩
        | succ k ih =>
            refine ⟨ih.1.previous, ?_⟩
            rw [Date.before, dayNumber_previous ih.1, ih.2]
            omega
      exact hback (n + 1)

theorem dayNumber_civil (n : Int) : dayNumber (civil n) = n := (civil_spec n).2

/-- A date of an earlier year has a lower number. -/
theorem dayNumber_lt_of_year {d e : Date} (hd : d.Real) (he : e.Real) (h : d.year < e.year) :
    dayNumber d < dayNumber e := by
  have hlow := (dayNumber_bounds he).1
  have hhigh := (dayNumber_bounds hd).2
  have hmono : daysBeforeYear (d.year + 1) ≤ daysBeforeYear e.year := daysBeforeYear_mono h
  omega

/-- A date of an earlier month of the year has a lower number. -/
theorem dayNumber_lt_of_month {d e : Date} (hd : d.Real) (he : e.Real) (hyear : d.year = e.year)
    (h : d.month < e.month) : dayNumber d < dayNumber e := by
  obtain ⟨k, hk⟩ : ∃ k : Nat, e.month = d.month + 1 + k := ⟨(e.month - d.month - 1).toNat, by omega⟩
  have hmonths := daysBeforeMonth_add_le d.year hd.month_pos k (by rw [← hk]; exact he.month_le)
  have hfirst := he.day_pos
  have hlast := hd.day_le
  simp only [dayNumber]
  rw [← hyear, hk]
  omega

/-- **Dates of the calendar with one number are the same.** -/
theorem dayNumber_injective {d e : Date} (hd : d.Real) (he : e.Real)
    (h : dayNumber d = dayNumber e) : d = e := by
  have hyear : d.year = e.year := by
    rcases Int.lt_trichotomy d.year e.year with hlt | heq | hgt
    · exact absurd h (Int.ne_of_lt (dayNumber_lt_of_year hd he hlt))
    · exact heq
    · exact absurd h.symm (Int.ne_of_lt (dayNumber_lt_of_year he hd hgt))
  have hmonth : d.month = e.month := by
    rcases Int.lt_trichotomy d.month e.month with hlt | heq | hgt
    · exact absurd h (Int.ne_of_lt (dayNumber_lt_of_month hd he hyear hlt))
    · exact heq
    · exact absurd h.symm (Int.ne_of_lt (dayNumber_lt_of_month he hd hyear.symm hgt))
  have hday : d.day = e.day := by
    simp only [dayNumber] at h
    rw [hyear, hmonth] at h
    omega
  cases d
  cases e
  simp only at hyear hmonth hday
  rw [hyear, hmonth, hday]

/-- **Dates of the calendar have the order of their numbers**: by year, month and day. -/
theorem dayNumber_lt_iff {d e : Date} (hd : d.Real) (he : e.Real) :
    dayNumber d < dayNumber e ↔
      d.year < e.year ∨ d.year = e.year ∧
        (d.month < e.month ∨ d.month = e.month ∧ d.day < e.day) := by
  rcases Int.lt_trichotomy d.year e.year with hlt | hyear | hgt
  · exact iff_of_true (dayNumber_lt_of_year hd he hlt) (.inl hlt)
  · rcases Int.lt_trichotomy d.month e.month with hlt | hmonth | hgt
    · exact iff_of_true (dayNumber_lt_of_month hd he hyear hlt) (.inr ⟨hyear, .inl hlt⟩)
    · simp only [dayNumber]
      rw [hyear, hmonth]
      omega
    · have hless := dayNumber_lt_of_month he hd hyear.symm hgt
      exact iff_of_false (by omega) (by omega)
  · have hless := dayNumber_lt_of_year he hd hgt
    exact iff_of_false (by omega) (by omega)

/-- The date of the calendar with a number is the one that the days lead to. -/
theorem eq_civil {d : Date} (h : d.Real) : d = civil (dayNumber d) :=
  dayNumber_injective h (civil_spec _).1 (dayNumber_civil _).symm

end Ssgx.Support
