import RegisterMachine.Proofs.Log.Calendar
import RegisterMachine.Proofs.Text

set_option autoImplicit false

/-!
# Time stamps in order

The columns of a time stamp go from the year down to the millisecond.  As long as the year has four
digits, they have one width, and a later reading of the clock differs from an earlier one first in a
column that grows.  So lines that begin with the time are sorted as texts if they are sorted by
time, and nothing of a reading is lost but what is less than a millisecond.
-/

namespace RegisterMachine.Log

/-! ## The order of dates, column by column -/

namespace GregorianDate

instance : Ord GregorianDate where
  compare d e := (compare d.year e.year).then ((compare d.month e.month).then (compare d.day e.day))

theorem compare_def (d e : GregorianDate) :
    compare d e =
      (compare d.year e.year).then ((compare d.month e.month).then (compare d.day e.day)) :=
  rfl

variable {d e : GregorianDate}

theorem Before.compare_eq_lt (h : d.Before e) : compare d e = .lt := by
  rw [compare_def, Ordering.then_eq_lt, Ordering.then_eq_lt, Nat.compare_eq_lt, Nat.compare_eq_eq,
    Nat.compare_eq_lt, Nat.compare_eq_eq, Nat.compare_eq_lt]
  exact h

theorem Before.compare_eq_gt (h : d.Before e) : compare e d = .gt := by
  simp only [Before] at h
  rw [compare_def, Ordering.then_eq_gt, Ordering.then_eq_gt, Nat.compare_eq_gt, Nat.compare_eq_eq,
    Nat.compare_eq_gt, Nat.compare_eq_eq, Nat.compare_eq_gt]
  omega

theorem compare_sinceEpoch (days days' : Nat) :
    compare (sinceEpoch days) (sinceEpoch days') = compare days days' := by
  rcases Nat.lt_trichotomy days days' with h | rfl | h
  · rw [(sinceEpoch_before h).compare_eq_lt, Nat.compare_eq_lt.mpr h]
  · simp [compare_def]
  · rw [(sinceEpoch_before h).compare_eq_gt, Nat.compare_eq_gt.mpr h]

/-- A date comes as many days after 1 January 1970 as its number says. -/
theorem sinceEpoch_of_number {days : Nat} (h : d.number = 719468 + days) (hbound : days < 2 ^ 48) :
    sinceEpoch days = d := by
  have hd := Date.exact_ofDays? d h hbound
  rw [Date.exact_ofDays? _ (number_sinceEpoch days) hbound] at hd
  obtain ⟨hyear, hmonth, hday⟩ : _ ∧ _ ∧ _ := by
    simpa only [Option.some.injEq, Prod.mk.injEq] using hd
  exact GregorianDate.ext hyear hmonth hday

/-- The years with no more than four digits are over after 2932897 days. -/
theorem year_sinceEpoch_lt_iff (days : Nat) : (sinceEpoch days).year < 10000 ↔ days < 2932897 := by
  have hend : sinceEpoch 2932897 = { year := 10000, month := 1, day := 1 } :=
    sinceEpoch_of_number (by decide) (by decide)
  have hmonth := (sinceEpoch days).month_mem
  have hday := (sinceEpoch days).day_mem
  rcases Nat.lt_trichotomy days 2932897 with h | rfl | h
  · have hbefore := sinceEpoch_before h
    simp only [hend, Before] at hbefore
    omega
  · simp only [hend]
    omega
  · have hbefore := sinceEpoch_before h
    simp only [hend, Before] at hbefore
    omega

end GregorianDate

namespace Timestamp

/-! ## The columns of a time stamp -/

/-- The numbers of a time fit their columns. -/
structure Fits (t : Timestamp) : Prop where
  /-- The year has no more than four digits. -/
  year_lt : t.date.year.toNat < 10 ^ 4
  /-- The month has two digits. -/
  month_lt : t.date.month.toNat < 10 ^ 2
  /-- The day of the month has two digits. -/
  day_lt : t.date.day.toNat < 10 ^ 2
  /-- The seconds are those of one day. -/
  secondOfDay_lt : t.secondOfDay.toNat < 86400
  /-- The milliseconds are those of one second. -/
  millisecond_lt : t.millisecond.toNat < 10 ^ 3

variable {t u : Timestamp}

theorem toList_render (t : Timestamp) :
    t.render.toList =
      (zeroPadded 4 t.date.year.toNat).toList ++ ['-'] ++
      (zeroPadded 2 t.date.month.toNat).toList ++ ['-'] ++
      (zeroPadded 2 t.date.day.toNat).toList ++ [' '] ++
      (zeroPadded 2 (t.secondOfDay.toNat / 3600)).toList ++ [':'] ++
      (zeroPadded 2 (t.secondOfDay.toNat / 60 % 60)).toList ++ [':'] ++
      (zeroPadded 2 (t.secondOfDay.toNat % 60)).toList ++ ['.'] ++
      (zeroPadded 3 t.millisecond.toNat).toList := by
  simp [render, toString]

theorem Fits.hour_lt (h : t.Fits) : t.secondOfDay.toNat / 3600 < 10 ^ 2 := by
  have hday := h.secondOfDay_lt
  omega

theorem minute_lt (t : Timestamp) : t.secondOfDay.toNat / 60 % 60 < 10 ^ 2 := by
  omega

theorem second_lt (t : Timestamp) : t.secondOfDay.toNat % 60 < 10 ^ 2 := by
  omega

theorem Fits.length_render (h : t.Fits) : t.render.length = 23 := by
  rw [← String.length_toList, toList_render, toList_zeroPadded (by decide) h.year_lt,
    toList_zeroPadded (by decide) h.month_lt, toList_zeroPadded (by decide) h.day_lt,
    toList_zeroPadded (by decide) h.hour_lt, toList_zeroPadded (by decide) (minute_lt t),
    toList_zeroPadded (by decide) (second_lt t), toList_zeroPadded (by decide) h.millisecond_lt]
  simp only [List.length_append, length_lastDigits, List.length_singleton]

/-- Hours, minutes and seconds are compared as the seconds of the day are. -/
theorem compare_secondOfDay (a b : Nat) :
    compare a b = (compare (a / 3600) (b / 3600)).then
      ((compare (a / 60 % 60) (b / 60 % 60)).then (compare (a % 60) (b % 60))) := by
  rw [compare_eq_compare_div_then 60 a b, compare_eq_compare_div_then 60 (a / 60) (b / 60),
    Nat.div_div_eq_div_mul, Nat.div_div_eq_div_mul, Ordering.then_assoc]

/-- The texts of times stand in the order of their dates, on one date in that of the seconds, and
within a second in that of the milliseconds. -/
theorem Fits.stand_render (ht : t.Fits) (hu : u.Fits) :
    Stand t.render.toList u.render.toList
      ((compare t.date.year.toNat u.date.year.toNat).then
        ((compare t.date.month.toNat u.date.month.toNat).then
          ((compare t.date.day.toNat u.date.day.toNat).then
            ((compare t.secondOfDay.toNat u.secondOfDay.toNat).then
              (compare t.millisecond.toNat u.millisecond.toNat))))) := by
  have hyear := stand_zeroPadded (by decide) ht.year_lt hu.year_lt
  have hmonth := stand_zeroPadded (by decide) ht.month_lt hu.month_lt
  have hday := stand_zeroPadded (by decide) ht.day_lt hu.day_lt
  have hhour := stand_zeroPadded (by decide) ht.hour_lt hu.hour_lt
  have hminute := stand_zeroPadded (by decide) (minute_lt t) (minute_lt u)
  have hsecond := stand_zeroPadded (by decide) (second_lt t) (second_lt u)
  have hmillisecond := stand_zeroPadded (by decide) ht.millisecond_lt hu.millisecond_lt
  have hcolumns := (((((((((((hyear.append (.refl ['-'])).append hmonth).append
    (.refl ['-'])).append hday).append (.refl [' '])).append hhour).append (.refl [':'])).append
    hminute).append (.refl [':'])).append hsecond).append (.refl ['.'])).append hmillisecond
  rw [toList_render, toList_render, compare_secondOfDay t.secondOfDay.toNat]
  simpa only [Ordering.then_eq, Ordering.then_assoc] using hcolumns

/-! ## The time since 1970 -/

section SinceEpoch

variable {s s' : UInt64} {n n' : UInt32}

theorem date_sinceEpoch (n : UInt32)
    (hyear : (GregorianDate.sinceEpoch (s.toNat / 86400)).year < 10000) :
    (sinceEpoch s n).date.year.toNat = (GregorianDate.sinceEpoch (s.toNat / 86400)).year ∧
      (sinceEpoch s n).date.month.toNat = (GregorianDate.sinceEpoch (s.toNat / 86400)).month ∧
      (sinceEpoch s n).date.day.toNat = (GregorianDate.sinceEpoch (s.toNat / 86400)).day := by
  obtain ⟨hy, hm, hd⟩ := Date.ofDays_eq_of_exact (Date.exact_ofDays?_clock s)
  rw [Nat.mod_eq_of_lt (by omega)] at hy
  exact ⟨hy, hm, hd⟩

theorem fits_sinceEpoch (hyear : (GregorianDate.sinceEpoch (s.toNat / 86400)).year < 10000)
    (hn : n.toNat < 1000000000) : (sinceEpoch s n).Fits := by
  obtain ⟨hy, hm, hd⟩ := date_sinceEpoch n hyear
  have hmonth := (GregorianDate.sinceEpoch (s.toNat / 86400)).month_mem
  have hday := (GregorianDate.sinceEpoch (s.toNat / 86400)).day_mem
  have hlength := (monthLength_mem (GregorianDate.sinceEpoch (s.toNat / 86400)).year
    (GregorianDate.sinceEpoch (s.toNat / 86400)).month).2
  have hsecond : (sinceEpoch s n).secondOfDay.toNat = s.toNat % 86400 := rfl
  have hmillisecond : (sinceEpoch s n).millisecond.toNat = n.toNat / 1000000 := rfl
  constructor <;> omega

/-- The texts of times since 1970 stand in the order of the whole milliseconds. -/
theorem stand_sinceEpoch (hyear : (GregorianDate.sinceEpoch (s.toNat / 86400)).year < 10000)
    (hyear' : (GregorianDate.sinceEpoch (s'.toNat / 86400)).year < 10000)
    (hn : n.toNat < 1000000000) (hn' : n'.toNat < 1000000000) :
    Stand (sinceEpoch s n).render.toList (sinceEpoch s' n').render.toList
      (compare (s.toNat * 1000 + n.toNat / 1000000) (s'.toNat * 1000 + n'.toNat / 1000000)) := by
  have hstand := (fits_sinceEpoch hyear hn).stand_render (fits_sinceEpoch hyear' hn')
  obtain ⟨hy, hm, hd⟩ := date_sinceEpoch n hyear
  obtain ⟨hy', hm', hd'⟩ := date_sinceEpoch n' hyear'
  have hdate := GregorianDate.compare_sinceEpoch (s.toNat / 86400) (s'.toNat / 86400)
  rw [GregorianDate.compare_def, ← hy, ← hm, ← hd, ← hy', ← hm', ← hd'] at hdate
  have hseconds : compare s.toNat s'.toNat =
      (compare (s.toNat / 86400) (s'.toNat / 86400)).then
        (compare (s.toNat % 86400) (s'.toNat % 86400)) := compare_eq_compare_div_then ..
  have hmillisecond : n.toNat / 1000000 < 1000 := by omega
  have hmillisecond' : n'.toNat / 1000000 < 1000 := by omega
  rw [compare_mul_add hmillisecond hmillisecond', hseconds, ← hdate]
  simp only [Ordering.then_assoc]
  exact hstand

end SinceEpoch

end Timestamp

/-! ## Readings of the clock -/

namespace Instant

/-- The whole seconds since the beginning of 1970.  A time before it counts as the beginning. -/
def wholeSeconds (t : Instant) : Nat :=
  if t.seconds < 0 then 0 else t.seconds.toInt.toNat

/-- The whole milliseconds since the beginning of 1970. -/
def wholeMilliseconds (t : Instant) : Nat :=
  if t.seconds < 0 then 0 else t.seconds.toInt.toNat * 1000 + t.nanoseconds.toNat / 1000000

/-- A clock shows the nanoseconds of one second, and a time stamp has room for years before
10000. -/
structure Legible (t : Instant) : Prop where
  /-- There are fewer nanoseconds than a second has. -/
  nanoseconds_lt : t.nanoseconds < 1000000000
  /-- The year has no more than four digits. -/
  year_lt : (GregorianDate.sinceEpoch (t.wholeSeconds / 86400)).year < 10000

theorem toNat_toUInt64 {x : Int64} (h : ¬ x < 0) : x.toUInt64.toNat = x.toInt.toNat := by
  rw [Int64.lt_iff_toInt_lt] at h
  have hzero : (0 : Int64).toInt = 0 := rfl
  have hint : x.toInt = x.toBitVec.toInt := rfl
  have hnat : x.toUInt64.toNat = x.toBitVec.toNat := rfl
  have hlt := x.toBitVec.isLt
  rw [hzero, hint, BitVec.toInt_eq_toNat_cond] at h
  rw [hnat, hint, BitVec.toInt_eq_toNat_cond]
  split at h <;> omega

variable {t u : Instant}

/-- What a reading shows is a time since 1970. -/
theorem exists_ofInstant_eq (t : Instant) :
    ∃ s n, Timestamp.ofInstant t = .sinceEpoch s n ∧ s.toNat = t.wholeSeconds ∧
      n.toNat ≤ t.nanoseconds.toNat ∧
      t.wholeMilliseconds = s.toNat * 1000 + n.toNat / 1000000 := by
  by_cases hearly : t.seconds < 0
  · refine ⟨0, 0, if_pos hearly, ?_, Nat.zero_le _, ?_⟩
    · rw [wholeSeconds, if_pos hearly]
      rfl
    · rw [wholeMilliseconds, if_pos hearly]
      rfl
  · refine ⟨t.seconds.toUInt64, t.nanoseconds, if_neg hearly, ?_, Nat.le_refl _, ?_⟩
    · rw [wholeSeconds, if_neg hearly, toNat_toUInt64 hearly]
    · rw [wholeMilliseconds, if_neg hearly, toNat_toUInt64 hearly]

theorem Legible.exists_ofInstant_eq (h : t.Legible) :
    ∃ s n, Timestamp.ofInstant t = .sinceEpoch s n ∧
      (GregorianDate.sinceEpoch (s.toNat / 86400)).year < 10000 ∧ n.toNat < 1000000000 ∧
      t.wholeMilliseconds = s.toNat * 1000 + n.toNat / 1000000 := by
  obtain ⟨s, n, hshown, hs, hn, hmilliseconds⟩ := Instant.exists_ofInstant_eq t
  have hnanoseconds : t.nanoseconds.toNat < 1000000000 := UInt32.lt_iff_toNat_lt.mp h.nanoseconds_lt
  exact ⟨s, n, hshown, by rw [hs]; exact h.year_lt, by omega, hmilliseconds⟩

/-- A time stamp is as wide as its columns, and the separators between them. -/
theorem Legible.length_render (h : t.Legible) : (Timestamp.ofInstant t).render.length = 23 := by
  obtain ⟨s, n, hshown, hyear, hn, -⟩ := h.exists_ofInstant_eq
  rw [hshown]
  exact (Timestamp.fits_sinceEpoch hyear hn).length_render

/-- Time stamps stand in the order of the whole milliseconds. -/
theorem Legible.stand_render (ht : t.Legible) (hu : u.Legible) :
    Stand (Timestamp.ofInstant t).render.toList (Timestamp.ofInstant u).render.toList
      (compare t.wholeMilliseconds u.wholeMilliseconds) := by
  obtain ⟨s, n, hshown, hyear, hn, hmilliseconds⟩ := ht.exists_ofInstant_eq
  obtain ⟨s', n', hshown', hyear', hn', hmilliseconds'⟩ := hu.exists_ofInstant_eq
  rw [hshown, hshown', hmilliseconds, hmilliseconds']
  exact Timestamp.stand_sinceEpoch hyear hyear' hn hn'

end Instant

namespace Timestamp

variable {t u : Instant}

/-- Time stamps before the year 10000 have one length and are ordered, as texts, as the readings of
the clock are in whole milliseconds.  In particular two readings have one text only if they agree to
the millisecond. -/
theorem timestamps_sort (ht : t.Legible) (hu : u.Legible) :
    (ofInstant t).render.length = 23 ∧ (ofInstant u).render.length = 23 ∧
      ((ofInstant t).render < (ofInstant u).render ↔ t.wholeMilliseconds < u.wholeMilliseconds) ∧
      ((ofInstant t).render = (ofInstant u).render ↔ t.wholeMilliseconds = u.wholeMilliseconds) ∧
      ((ofInstant u).render < (ofInstant t).render ↔
        u.wholeMilliseconds < t.wholeMilliseconds) := by
  refine ⟨ht.length_render, hu.length_render, ?_, ?_, ?_⟩
  · rw [String.lt_iff, lt_iff_compare_eq_lt, (ht.stand_render hu).compare_eq, Nat.compare_eq_lt]
  · rw [← String.toList_inj, ← Std.compare_eq_iff_eq, (ht.stand_render hu).compare_eq,
      Nat.compare_eq_eq]
  · rw [String.lt_iff, lt_iff_compare_eq_lt, (hu.stand_render ht).compare_eq, Nat.compare_eq_lt]

/-- One nanosecond later, and a later text: it is the one with which the next millisecond begins. -/
theorem timestamps_sort_at_millisecond :
    Instant.Legible ⟨1709211909, 42999999⟩ ∧ Instant.Legible ⟨1709211909, 43000000⟩ ∧
      Instant.wholeMilliseconds ⟨1709211909, 42999999⟩ <
        Instant.wholeMilliseconds ⟨1709211909, 43000000⟩ ∧
      (ofInstant ⟨1709211909, 42999999⟩).render < (ofInstant ⟨1709211909, 43000000⟩).render := by
  have ht : Instant.Legible ⟨1709211909, 42999999⟩ :=
    ⟨by decide, (GregorianDate.year_sinceEpoch_lt_iff _).mpr (by decide)⟩
  have hu : Instant.Legible ⟨1709211909, 43000000⟩ :=
    ⟨by decide, (GregorianDate.year_sinceEpoch_lt_iff _).mpr (by decide)⟩
  have hlt : Instant.wholeMilliseconds ⟨1709211909, 42999999⟩ <
      Instant.wholeMilliseconds ⟨1709211909, 43000000⟩ := by decide
  obtain ⟨-, -, hsort, -, -⟩ := timestamps_sort ht hu
  exact ⟨ht, hu, hlt, hsort.mpr hlt⟩

end Timestamp

end RegisterMachine.Log
