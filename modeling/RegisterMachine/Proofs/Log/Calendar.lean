import RegisterMachine.Log.Timestamp
import RegisterMachine.Proofs.CheckedArithmetic
import RegisterMachine.Proofs.Log.Gregorian

set_option autoImplicit false

/-!
# The calendar is the Gregorian one

The date of a day is computed with words of 32 and 64 bits.  Computed with checked numbers, by the
same formulas, it is the date that the rule of the calendar leads to, for all days that a clock of
64 bits can show.  So none of the steps overflows, and the words come to that date as well.
-/

namespace RegisterMachine.Log

open Checked (exact Agrees)

/-- The numbers of an unsigned word of 32 bits. -/
abbrev Checked32 : Type := Checked (2 ^ 32)

/-- The numbers of a signed word of 64 bits that are not negative. -/
abbrev Checked64 : Type := Checked (2 ^ 63)

namespace Date

/-! ## The formulas with checked numbers -/

namespace Exact

/-- The place of a day in its era. -/
def dayOfEra (day : Checked64) : Checked32 := (day % 146097).cast

/-- The year in its era that a day belongs to. -/
def yearOfEra (dayOfEra : Checked32) : Checked32 :=
  (dayOfEra - dayOfEra / 1460 + dayOfEra / 36524 - dayOfEra / 146096) / 365

/-- The place of a day in its year. -/
def dayOfYear (dayOfEra yearOfEra : Checked32) : Checked32 :=
  dayOfEra - (365 * yearOfEra + yearOfEra / 4 - yearOfEra / 100)

/-- The month that a day of the year belongs to, where March is 0. -/
def monthFromMarch (dayOfYear : Checked32) : Checked32 := (5 * dayOfYear + 2) / 153

/-- The day of the month. -/
def dayOfMonth (dayOfYear monthFromMarch : Checked32) : Checked32 :=
  dayOfYear - (153 * monthFromMarch + 2) / 5 + 1

/-- The month, where January is 1. -/
def monthFromJanuary (monthFromMarch : Checked32) : Checked32 :=
  monthFromMarch.select (· < 10) (monthFromMarch + 3) (monthFromMarch - 9)

/-- The calendar year. -/
def calendarYear (era : Checked64) (yearOfEra month : Checked32) : Checked64 :=
  let year := yearOfEra.cast + era * 400
  month.select (· ≤ 2) (year + 1) year

/-- Year, month and day of the month of a day, where 1 January 1970 is day 0. -/
def ofDays? (days : Checked64) : Option (Nat × Nat × Nat) := do
  let day := days + 719468
  let dayOfEra := dayOfEra day
  let yearOfEra := yearOfEra dayOfEra
  let dayOfYear := dayOfYear dayOfEra yearOfEra
  let monthFromMarch := monthFromMarch dayOfYear
  let month := monthFromJanuary monthFromMarch
  return (← (calendarYear (day / 146097) yearOfEra month).value?, ← month.value?,
    ← (dayOfMonth dayOfYear monthFromMarch).value?)

end Exact

/-! ## Words come to the same -/

section Words

variable {day : UInt64} {e y d m : UInt32} {day' : Checked64} {e' y' d' m' : Checked32}

theorem agrees_literal (k : Nat) : Agrees (BitVec.ofNat 32 k) (OfNat.ofNat k : Checked32) :=
  .literal (by decide) k

theorem agrees_literal64 (k : Nat) : Agrees (BitVec.ofNat 64 k) (OfNat.ofNat k : Checked64) :=
  .literal (by decide) k

theorem agrees_dayOfEra (h : Agrees day.toBitVec day') :
    Agrees (dayOfEra day).toBitVec (Exact.dayOfEra day') :=
  (h.mod (agrees_literal64 146097)).setWidth (by decide)

theorem agrees_yearOfEra (h : Agrees e.toBitVec e') :
    Agrees (yearOfEra e).toBitVec (Exact.yearOfEra e') :=
  (((h.sub (h.div (agrees_literal 1460))).add (h.div (agrees_literal 36524))).sub
    (h.div (agrees_literal 146096))).div (agrees_literal 365)

theorem agrees_dayOfYear (h : Agrees e.toBitVec e') (hy : Agrees y.toBitVec y') :
    Agrees (dayOfYear e y).toBitVec (Exact.dayOfYear e' y') :=
  h.sub ((((agrees_literal 365).mul hy).add (hy.div (agrees_literal 4))).sub
    (hy.div (agrees_literal 100)))

theorem agrees_monthFromMarch (h : Agrees d.toBitVec d') :
    Agrees (monthFromMarch d).toBitVec (Exact.monthFromMarch d') :=
  (((agrees_literal 5).mul h).add (agrees_literal 2)).div (agrees_literal 153)

theorem agrees_dayOfMonth (h : Agrees d.toBitVec d') (hm : Agrees m.toBitVec m') :
    Agrees (dayOfMonth d m).toBitVec (Exact.dayOfMonth d' m') :=
  (h.sub ((((agrees_literal 153).mul hm).add (agrees_literal 2)).div (agrees_literal 5))).add
    (agrees_literal 1)

theorem agrees_monthFromJanuary (h : Agrees m.toBitVec m') :
    Agrees (monthFromJanuary m).toBitVec (Exact.monthFromJanuary m') := by
  rw [monthFromJanuary, apply_ite UInt32.toBitVec]
  exact h.select Iff.rfl (h.add (agrees_literal 3)) (h.sub (agrees_literal 9))

theorem agrees_calendarYear {era : UInt64} {era' : Checked64} (h : Agrees era.toBitVec era')
    (hy : Agrees y.toBitVec y') (hm : Agrees m.toBitVec m') :
    Agrees (calendarYear era y m).toBitVec (Exact.calendarYear era' y' m') := by
  have hwide : Agrees (y.toBitVec.setWidth 64) (y'.cast : Checked64) := hy.setWidth (by decide)
  have hyear := hwide.add (h.mul (agrees_literal64 400))
  rw [calendarYear, apply_ite UInt64.toBitVec]
  exact hm.select Iff.rfl (hyear.add (agrees_literal64 1)) hyear

/-- The date of a day is the one that is computed without overflow, the year modulo `2 ^ 32`. -/
theorem ofDays_eq_of_exact {days : UInt64} {year month dayOfMonth : Nat}
    (h : Exact.ofDays? (.ofNat days.toNat) = some (year, month, dayOfMonth)) :
    (ofDays days).year.toNat = year % 2 ^ 32 ∧ (ofDays days).month.toNat = month ∧
      (ofDays days).day.toNat = dayOfMonth := by
  have hdays : Agrees days.toBitVec (.ofNat days.toNat : Checked64) :=
    ⟨by decide, fun k hk => (Agrees.ofNat_eq_some hk).1⟩
  have hday := hdays.add (agrees_literal64 719468)
  have hera := hday.div (agrees_literal64 146097)
  have he : Agrees (dayOfEra (days + epochOffset)).toBitVec _ := agrees_dayOfEra hday
  have hy := agrees_yearOfEra he
  have hd := agrees_dayOfYear he hy
  have hm := agrees_monthFromMarch hd
  have hmonth := agrees_monthFromJanuary hm
  have hyear : Agrees (calendarYear ((days + epochOffset) / daysPerEra) _ _).toBitVec _ :=
    agrees_calendarYear hera hy hmonth
  have hdayOfMonth := agrees_dayOfMonth hd hm
  simp only [Exact.ofDays?, bind, Option.bind_eq_some_iff, pure, Option.some.injEq,
    Prod.mk.injEq] at h
  obtain ⟨_, hyear', _, hmonth', _, hday', rfl, rfl, rfl⟩ := h
  refine ⟨?_, hmonth.toNat_eq _ hmonth', hdayOfMonth.toNat_eq _ hday'⟩
  rw [← hyear.toNat_eq _ hyear']
  exact UInt64.toNat_toUInt32 _

end Words

/-! ## The formulas undo the numbering of dates -/

section Numbers

open GregorianDate
open Checked

variable {e y d m : Nat}

theorem exact_dayOfEra {number : Nat} (h : number < 2 ^ 63) :
    Exact.dayOfEra (exact number) = exact (number % 146097) := by
  simp (disch := omega) only [Exact.dayOfEra, literal_eq_exact, exact_mod, cast_exact]

/-- What the leap days before a day add to its number is taken away again: once in about 1460 days,
but for one day in 36524, and again for one in 146096. -/
theorem exact_yearOfEra (hy : y < 400) (hd : d ≤ 365)
    (hleap : d = 365 → IsLeapYear (y + 1)) (he : e = 365 * y + y / 4 - y / 100 + d) :
    Exact.yearOfEra (exact e) = exact y := by
  have heval : Exact.yearOfEra (exact e) =
      exact ((e - e / 1460 + e / 36524 - e / 146096) / 365) := by
    simp (disch := omega) only [Exact.yearOfEra, literal_eq_exact, exact_div, exact_sub, exact_add]
  rw [heval]
  -- The year as centuries, groups of four years, and single years.
  obtain ⟨c, q, r, hc, hq, hr, hsplit⟩ :
      ∃ c q r, c < 4 ∧ q < 25 ∧ r < 4 ∧ y = 100 * c + 4 * q + r :=
    ⟨y / 100, y % 100 / 4, y % 4, by omega, by omega, by omega, by omega⟩
  have hnumber : e = 36524 * c + 1461 * q + 365 * r + d := by omega
  have hlast : d = 365 → r = 3 ∧ (q = 24 → c = 3) := by
    intro hd
    have hleap := hleap hd
    unfold IsLeapYear at hleap
    omega
  congr 1
  by_cases hend : e = 146096
  · omega
  · have hcentury : e / 36524 = c := by omega
    have hera : e / 146096 = 0 := by omega
    have hquarter : e / 1460 = 25 * c + q ∨ e / 1460 = 25 * c + q + 1 ∧ 269 ≤ d := by omega
    omega

theorem exact_dayOfYear (hy : y < 400) (hd : d ≤ 365)
    (he : e = 365 * y + y / 4 - y / 100 + d) :
    Exact.dayOfYear (exact e) (exact y) = exact d := by
  have heval : Exact.dayOfYear (exact e) (exact y) =
      exact (e - (365 * y + y / 4 - y / 100)) := by
    simp (disch := omega) only [Exact.dayOfYear, literal_eq_exact, exact_mul, exact_div, exact_add,
      exact_sub]
  rw [heval]
  congr 1
  omega

theorem exact_monthFromMarch (hd : d ≤ 365) :
    Exact.monthFromMarch (exact d) = exact ((5 * d + 2) / 153) := by
  simp (disch := omega) only [Exact.monthFromMarch, literal_eq_exact, exact_mul, exact_add,
    exact_div]

theorem exact_dayOfMonth (hd : d ≤ 365) (hm : daysFromMarch m ≤ d) :
    Exact.dayOfMonth (exact d) (exact m) = exact (d - daysFromMarch m + 1) := by
  unfold daysFromMarch at *
  simp (disch := omega) only [Exact.dayOfMonth, literal_eq_exact, exact_mul, exact_add,
    exact_div, exact_sub]

theorem exact_monthFromJanuary {month : Nat} (h : 1 ≤ month ∧ month ≤ 12) :
    Exact.monthFromJanuary (exact (marchMonth month)) = exact month := by
  rw [Exact.monthFromJanuary, select_exact]
  unfold marchMonth
  by_cases hearly : month ≤ 2
  · rw [if_pos hearly, if_neg (by omega), literal_eq_exact (by decide),
      exact_sub (by omega) (by omega), Nat.add_sub_cancel]
  · rw [if_neg hearly, if_pos (by omega), literal_eq_exact (by decide), exact_add (by omega),
      Nat.sub_add_cancel (by omega)]

theorem exact_calendarYear {era month : Nat} (hera : era < 2 ^ 48) (hy : y < 400) :
    Exact.calendarYear (exact era) (exact y) (exact month) =
      exact (if month ≤ 2 then y + era * 400 + 1 else y + era * 400) := by
  simp (disch := omega) only [Exact.calendarYear, literal_eq_exact, cast_exact, exact_mul,
    exact_add, select_exact, apply_ite exact]

/-- A date's number consists of its era and its place in the era, counted from 1 March. -/
theorem number_div_mod (g : GregorianDate) :
    g.number / 146097 = marchYear g.year g.month / 400 ∧
      g.number % 146097 = 365 * (marchYear g.year g.month % 400) +
        marchYear g.year g.month % 400 / 4 - marchYear g.year g.month % 400 / 100 +
          g.sinceMarch := by
  have hd := g.sinceMarch_le
  have hy : marchYear g.year g.month % 400 < 400 := Nat.mod_lt _ (by decide)
  rw [number_eq, daysBeforeMarch_eq, daysBeforeMarch, Nat.div_eq_of_lt hy]
  generalize marchYear g.year g.month % 400 = y at *
  have hplace : 365 * y + y / 4 - y / 100 + g.sinceMarch < 146097 := by omega
  omega

/-- The formulas, computed without overflow, lead from the number of a date to the date. -/
theorem exact_ofDays? (g : GregorianDate) {days : Nat} (h : g.number = 719468 + days)
    (hbound : days < 2 ^ 48) :
    Exact.ofDays? (.ofNat days) = some (g.year, g.month, g.day) := by
  obtain ⟨hera, hplace⟩ := number_div_mod g
  have hd := g.sinceMarch_le
  have hy : marchYear g.year g.month % 400 < 400 := Nat.mod_lt _ (by decide)
  have hleap : g.sinceMarch = 365 → IsLeapYear (marchYear g.year g.month % 400 + 1) := by
    intro hlast
    have hyear := isLeapYear_of_sinceMarch_eq hlast
    unfold IsLeapYear at *
    omega
  have hday : (.ofNat days + 719468 : Checked64) = exact g.number := by
    rw [ofNat_eq_exact (by omega), literal_eq_exact (by decide), exact_add (by omega), h,
      Nat.add_comm]
  have hdayOfMonth : g.sinceMarch - daysFromMarch (marchMonth g.month) + 1 = g.day := by
    have hpos := g.day_mem.1
    unfold sinceMarch
    omega
  have hyear : (if g.month ≤ 2 then marchYear g.year g.month % 400 +
      marchYear g.year g.month / 400 * 400 + 1 else marchYear g.year g.month % 400 +
      marchYear g.year g.month / 400 * 400) = g.year := by
    have hpos := g.year_pos
    unfold marchYear
    split <;> omega
  have hdivision : (exact g.number / 146097 : Checked64) =
      exact (marchYear g.year g.month / 400) := by
    rw [literal_eq_exact (by decide), exact_div (by decide) (by omega), hera]
  have hmonth := exact_monthFromJanuary g.month_mem
  simp only [Exact.ofDays?, hday, hdivision, exact_dayOfEra (by omega : g.number < 2 ^ 63),
    exact_yearOfEra hy hd hleap hplace, exact_dayOfYear hy hd hplace, exact_monthFromMarch hd,
    marchMonth_eq, hmonth, exact_dayOfMonth hd (Nat.le_add_right _ _),
    exact_calendarYear (by omega : marchYear g.year g.month / 400 < 2 ^ 48) hy, hdayOfMonth, hyear]
  rfl

end Numbers

/-! ## Clocks of 64 bits -/

theorem exact_ofDays?_clock (seconds : UInt64) :
    Exact.ofDays? (.ofNat (seconds / Timestamp.secondsPerDay).toNat) =
      some ((GregorianDate.sinceEpoch (seconds.toNat / 86400)).year,
        (GregorianDate.sinceEpoch (seconds.toNat / 86400)).month,
        (GregorianDate.sinceEpoch (seconds.toNat / 86400)).day) := by
  have hbound : seconds.toNat / 86400 < 2 ^ 48 := by
    have hlt := seconds.toNat_lt
    omega
  exact exact_ofDays? _ (GregorianDate.number_sinceEpoch _) hbound

/-- Whatever time a clock of 64 bits shows, the date of its day is computed without overflow: each
step has its exact result, and together they make the date that follows 1 January 1970 by as many
days.  The words hold this date, the year modulo `2 ^ 32`. -/
theorem dates_are_gregorian (seconds : UInt64) :
    Exact.ofDays? (.ofNat (seconds.toNat / 86400)) =
        some ((GregorianDate.sinceEpoch (seconds.toNat / 86400)).year,
          (GregorianDate.sinceEpoch (seconds.toNat / 86400)).month,
          (GregorianDate.sinceEpoch (seconds.toNat / 86400)).day) ∧
      (ofDays (seconds / Timestamp.secondsPerDay)).year.toNat =
        (GregorianDate.sinceEpoch (seconds.toNat / 86400)).year % 2 ^ 32 ∧
      (ofDays (seconds / Timestamp.secondsPerDay)).month.toNat =
        (GregorianDate.sinceEpoch (seconds.toNat / 86400)).month ∧
      (ofDays (seconds / Timestamp.secondsPerDay)).day.toNat =
        (GregorianDate.sinceEpoch (seconds.toNat / 86400)).day := by
  have hexact := exact_ofDays?_clock seconds
  exact ⟨hexact, ofDays_eq_of_exact hexact⟩

end Date

end RegisterMachine.Log
