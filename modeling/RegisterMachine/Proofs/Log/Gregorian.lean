import Mathlib.Tactic.IntervalCases

set_option autoImplicit false

/-!
# The Gregorian calendar

The calendar by its rule: the months have their lengths, February has one day more in leap years,
and after the last day of a month or a year the next one begins.  The date of a day is what the rule
leads to from 1 January 1970, day by day.

Dates are ordered by year, month and day, and the day after has a later date.  Dates are also
numbered, by the days that have passed since 1 March of the year 0; the day after has the next
number, so that the number says how many days from the beginning of 1970 a date is.
-/

namespace RegisterMachine.Log

/-- A year has a leap day if 4 divides it but 100 does not, or if 400 does. -/
def IsLeapYear (year : Nat) : Prop := year % 4 = 0 ∧ (year % 100 ≠ 0 ∨ year % 400 = 0)

instance (year : Nat) : Decidable (IsLeapYear year) :=
  inferInstanceAs (Decidable (_ ∧ _))

/-- The number of days of a month. -/
def monthLength (year : Nat) : Nat → Nat
  | 2 => if IsLeapYear year then 29 else 28
  | 4 | 6 | 9 | 11 => 30
  | _ => 31

theorem monthLength_mem (year month : Nat) :
    1 ≤ monthLength year month ∧ monthLength year month ≤ 31 := by
  unfold monthLength
  split
  · split <;> decide
  all_goals decide

/-- A date of the calendar, from the year 1 on. -/
@[ext] structure GregorianDate where
  /-- The year. -/
  year : Nat
  /-- The month, from 1. -/
  month : Nat
  /-- The day of the month, from 1. -/
  day : Nat
  /-- There is no year 0. -/
  year_pos : 1 ≤ year := by decide
  /-- It is one of twelve months. -/
  month_mem : 1 ≤ month ∧ month ≤ 12 := by decide
  /-- The month has this day. -/
  day_mem : 1 ≤ day ∧ day ≤ monthLength year month := by decide
  deriving DecidableEq, Repr

namespace GregorianDate

/-- The day after. -/
def next (d : GregorianDate) : GregorianDate :=
  if h : d.day < monthLength d.year d.month then
    { d with day := d.day + 1, day_mem := ⟨Nat.le_add_left 1 d.day, h⟩ }
  else if h' : d.month < 12 then
    { d with
      month := d.month + 1
      day := 1
      month_mem := ⟨Nat.le_add_left 1 d.month, h'⟩
      day_mem := ⟨Nat.le_refl 1, (monthLength_mem d.year (d.month + 1)).1⟩ }
  else
    { year := d.year + 1
      month := 1
      day := 1
      year_pos := Nat.le_add_left 1 d.year
      day_mem := ⟨Nat.le_refl 1, (monthLength_mem (d.year + 1) 1).1⟩ }

/-- The date so many days after 1 January 1970. -/
def sinceEpoch : Nat → GregorianDate
  | 0 => { year := 1970, month := 1, day := 1 }
  | days + 1 => (sinceEpoch days).next

variable {d e f : GregorianDate}

theorem next_of_lt (h : d.day < monthLength d.year d.month) :
    d.next.year = d.year ∧ d.next.month = d.month ∧ d.next.day = d.day + 1 := by
  rw [next, dif_pos h]
  exact ⟨rfl, rfl, rfl⟩

theorem next_of_last_of_lt (h : d.day = monthLength d.year d.month) (h' : d.month < 12) :
    d.next.year = d.year ∧ d.next.month = d.month + 1 ∧ d.next.day = 1 := by
  rw [next, dif_neg (by omega), dif_pos h']
  exact ⟨rfl, rfl, rfl⟩

theorem next_of_last_of_eq (h : d.day = monthLength d.year d.month) (h' : d.month = 12) :
    d.next.year = d.year + 1 ∧ d.next.month = 1 ∧ d.next.day = 1 := by
  rw [next, dif_neg (by omega), dif_neg (by omega)]
  exact ⟨rfl, rfl, rfl⟩

/-- The three ways in which one day follows another. -/
theorem next_cases (d : GregorianDate) :
    (d.next.year = d.year ∧ d.next.month = d.month ∧ d.next.day = d.day + 1) ∨
    (d.day = monthLength d.year d.month ∧ d.month < 12 ∧
      d.next.year = d.year ∧ d.next.month = d.month + 1 ∧ d.next.day = 1) ∨
    (d.day = monthLength d.year d.month ∧ d.month = 12 ∧
      d.next.year = d.year + 1 ∧ d.next.month = 1 ∧ d.next.day = 1) := by
  have hday := d.day_mem
  have hmonth := d.month_mem
  by_cases h : d.day < monthLength d.year d.month
  · exact .inl (next_of_lt h)
  · have hlast : d.day = monthLength d.year d.month := by omega
    by_cases h' : d.month < 12
    · exact .inr (.inl ⟨hlast, h', next_of_last_of_lt hlast h'⟩)
    · have hdecember : d.month = 12 := by omega
      exact .inr (.inr ⟨hlast, hdecember, next_of_last_of_eq hlast hdecember⟩)

/-! ## The order of dates -/

/-- The earlier year comes first, in one year the earlier month, in one month the earlier day. -/
def Before (d e : GregorianDate) : Prop :=
  d.year < e.year ∨ d.year = e.year ∧ (d.month < e.month ∨ d.month = e.month ∧ d.day < e.day)

theorem Before.trans (h : d.Before e) (h' : e.Before f) : d.Before f := by
  simp only [Before] at *
  omega

theorem before_next (d : GregorianDate) : d.Before d.next := by
  simp only [Before]
  rcases d.next_cases with h | h | h <;> omega

theorem sinceEpoch_before {days later : Nat} (h : days < later) :
    (sinceEpoch days).Before (sinceEpoch later) := by
  induction h with
  | refl => exact before_next _
  | step _ ih => exact ih.trans (before_next _)

/-! ## The number of a date -/

/-- The days from 1 March of the year 0 to 1 March of another year. -/
def daysBeforeMarch (year : Nat) : Nat := 365 * year + year / 4 - year / 100 + year / 400

/-- The days from 1 March to the first day of a month after it, where March is 0. -/
def daysFromMarch (month : Nat) : Nat := (153 * month + 2) / 5

/-- The year, if it is counted from March. -/
def marchYear (year month : Nat) : Nat := if month ≤ 2 then year - 1 else year

/-- The month, if it is counted from March, where March is 0. -/
def marchMonth (month : Nat) : Nat := if month ≤ 2 then month + 9 else month - 3

/-- The days from 1 March of the year 0 to the first day of a month. -/
def daysBefore (year month : Nat) : Nat :=
  daysBeforeMarch (marchYear year month) + daysFromMarch (marchMonth month)

/-- The days from 1 March of the year 0 to a date. -/
def number (d : GregorianDate) : Nat := daysBefore d.year d.month + (d.day - 1)

/-- The year from March to March has the leap day of the calendar year in which it ends. -/
theorem daysBeforeMarch_add_one (year : Nat) :
    daysBeforeMarch (year + 1) = daysBeforeMarch year + 337 + monthLength (year + 1) 2 := by
  unfold daysBeforeMarch
  by_cases hleap : IsLeapYear (year + 1)
  · have hlength : monthLength (year + 1) 2 = 29 := by simp [monthLength, hleap]
    rw [hlength]
    obtain ⟨h4, h100 | h400⟩ := hleap
    · omega
    · omega
  · have hlength : monthLength (year + 1) 2 = 28 := by simp [monthLength, hleap]
    rw [hlength]
    by_cases h4 : (year + 1) % 4 = 0
    · have h100 : (year + 1) % 100 = 0 := by
        by_contra h100
        exact hleap ⟨h4, .inl h100⟩
      have h400 : (year + 1) % 400 ≠ 0 := fun h400 => hleap ⟨h4, .inr h400⟩
      omega
    · have hquarter : (year + 1) / 4 = year / 4 := by omega
      have hcentury : (year + 1) / 100 = year / 100 := by omega
      have hera : (year + 1) / 400 = year / 400 := by omega
      rw [hquarter, hcentury, hera]
      omega

theorem daysBefore_add_one {year month : Nat} (hyear : 1 ≤ year) (h : 1 ≤ month)
    (h' : month < 12) :
    daysBefore year (month + 1) = daysBefore year month + monthLength year month := by
  by_cases hfebruary : month = 2
  · -- Only at the end of February does the year that is counted from March change.
    subst hfebruary
    obtain ⟨before, rfl⟩ : ∃ before, year = before + 1 := ⟨year - 1, by omega⟩
    have hmarch : daysBefore (before + 1) 3 = daysBeforeMarch (before + 1) := rfl
    have hlast : daysBefore (before + 1) 2 = daysBeforeMarch before + 337 := rfl
    rw [hmarch, hlast, daysBeforeMarch_add_one]
  · simp only [daysBefore, marchYear, marchMonth, daysFromMarch]
    interval_cases month <;> simp [monthLength] at hfebruary ⊢

theorem daysBefore_newYear (year : Nat) :
    daysBefore (year + 1) 1 = daysBefore year 12 + monthLength year 12 := by
  simp [daysBefore, marchYear, marchMonth, daysFromMarch, monthLength]

/-- The day after has the next number. -/
theorem number_next (d : GregorianDate) : d.next.number = d.number + 1 := by
  have hday := d.day_mem
  simp only [number]
  rcases d.next_cases with ⟨hy, hm, hd⟩ | ⟨hlast, hlt, hy, hm, hd⟩ | ⟨hlast, hdecember, hy, hm, hd⟩
  · rw [hy, hm, hd]
    omega
  · rw [hy, hm, hd, daysBefore_add_one d.year_pos d.month_mem.1 hlt]
    omega
  · rw [hdecember] at hlast
    rw [hy, hm, hd, hdecember, daysBefore_newYear]
    omega

theorem number_epoch : (sinceEpoch 0).number = 719468 := by
  simp [sinceEpoch, number, daysBefore, marchYear, marchMonth, daysFromMarch, daysBeforeMarch]

theorem number_sinceEpoch (days : Nat) : (sinceEpoch days).number = 719468 + days := by
  induction days with
  | zero => exact number_epoch
  | succ days ih => rw [sinceEpoch, number_next, ih, Nat.add_assoc]

/-! ## Dates in a year from March to March -/

/-- The days of a date since the 1 March before it. -/
def sinceMarch (d : GregorianDate) : Nat := daysFromMarch (marchMonth d.month) + (d.day - 1)

theorem number_eq (d : GregorianDate) :
    d.number = daysBeforeMarch (marchYear d.year d.month) + d.sinceMarch :=
  Nat.add_assoc _ _ _

theorem marchMonth_le (d : GregorianDate) : marchMonth d.month ≤ 11 := by
  have hmonth := d.month_mem
  unfold marchMonth
  split <;> omega

/-- But for February, a month ends where the rule lets the next one begin. -/
theorem day_le_of_lt (h : marchMonth d.month < 11) :
    daysFromMarch (marchMonth d.month) + d.day ≤ daysFromMarch (marchMonth d.month + 1) := by
  have hday := d.day_mem.2
  obtain ⟨hpos, hle⟩ := d.month_mem
  unfold marchMonth at *
  unfold daysFromMarch
  generalize d.month = month at *
  interval_cases month <;> simp [monthLength] at hday h ⊢ <;> omega

theorem february_of_eq (h : marchMonth d.month = 11) :
    d.month = 2 ∧ d.day ≤ monthLength (marchYear d.year d.month + 1) 2 := by
  have hyear := d.year_pos
  have hday := d.day_mem.2
  have hfebruary : d.month = 2 := by
    have hmonth := d.month_mem
    unfold marchMonth at h
    split at h <;> omega
  rw [hfebruary] at hday ⊢
  rw [marchYear, if_pos (by decide), Nat.sub_add_cancel hyear]
  exact ⟨rfl, hday⟩

/-- A year from March to March ends with the February of the year after. -/
theorem sinceMarch_lt (d : GregorianDate) :
    d.sinceMarch < 337 + monthLength (marchYear d.year d.month + 1) 2 := by
  have hday := d.day_mem.1
  have hpos := (monthLength_mem (marchYear d.year d.month + 1) 2).1
  unfold sinceMarch
  by_cases h : marchMonth d.month = 11
  · obtain ⟨-, hlast⟩ := february_of_eq h
    have hfirst : daysFromMarch 11 = 337 := rfl
    rw [h, hfirst]
    omega
  · have hmonth := d.marchMonth_le
    have hlast := day_le_of_lt (d := d) (by omega)
    have hmarch : daysFromMarch (marchMonth d.month + 1) ≤ 337 := by
      unfold daysFromMarch
      omega
    omega

theorem sinceMarch_le (d : GregorianDate) : d.sinceMarch ≤ 365 := by
  have hlt := d.sinceMarch_lt
  by_cases hleap : IsLeapYear (marchYear d.year d.month + 1)
  · simp only [monthLength, if_pos hleap] at hlt
    omega
  · simp only [monthLength, if_neg hleap] at hlt
    omega

/-- There is a day 365 only if the year ends with a leap day. -/
theorem isLeapYear_of_sinceMarch_eq (h : d.sinceMarch = 365) :
    IsLeapYear (marchYear d.year d.month + 1) := by
  have hlt := d.sinceMarch_lt
  by_contra hleap
  simp only [monthLength, if_neg hleap] at hlt
  omega

/-- The month can be found from the day. -/
theorem marchMonth_eq (d : GregorianDate) :
    (5 * d.sinceMarch + 2) / 153 = marchMonth d.month := by
  have hday := d.day_mem.1
  have hle := d.sinceMarch_le
  have hmonth := d.marchMonth_le
  by_cases h : marchMonth d.month = 11
  · rw [h]
    simp only [sinceMarch, h, daysFromMarch] at hle ⊢
    omega
  · have hlast := day_le_of_lt (d := d) (by omega)
    simp only [sinceMarch, daysFromMarch] at hlast ⊢
    omega

/-! ## Eras -/

/-- Years repeat after an era of 400 years. -/
theorem daysBeforeMarch_eq (year : Nat) :
    daysBeforeMarch year = 146097 * (year / 400) + daysBeforeMarch (year % 400) := by
  simp only [daysBeforeMarch]
  omega

end GregorianDate

end RegisterMachine.Log
