import Mathlib.Data.Int.ConditionallyCompleteOrder
import Mathlib.Order.CompletePartialOrder
import Mathlib.Order.Interval.Set.Disjoint
import Mathlib.Order.Monotone.Basic
import Mathlib.Tactic.IntervalCases

/-!
# Machinery/Calendar — days, months and local time

    day     0 is 1 January 1970
    month   M = 12 · year + m, with m = 0 for January
    time    milliseconds; day d begins at d · 86400000, local or UTC

The calendar is the Gregorian one, in both directions.  `firstDay` grows by 28 to 31 with every
month, so every day is in one month (`firstDay_monthOf`).

A time zone is an offset for every instant, and the instant that a local time is read as
(`TimeZone`).  Whatever the zone, months begin in order, and the UTC dates of their local midnights
do too (`monthDate_strictMono`).
-/

namespace Machinery

namespace Calendar

/-! ## Years -/

def IsLeap (y : ℤ) : Prop := y % 4 = 0 ∧ (y % 100 ≠ 0 ∨ y % 400 = 0)

instance (y : ℤ) : Decidable (IsLeap y) := inferInstanceAs (Decidable (_ ∧ _))

/-- The day of 1 January. -/
def dayFromYear (y : ℤ) : ℤ :=
  365 * (y - 1970) + (y - 1969) / 4 - (y - 1901) / 100 + (y - 1601) / 400

/-- A year has 365 days, or 366. -/
theorem dayFromYear_succ (y : ℤ) :
    dayFromYear (y + 1) = dayFromYear y + if IsLeap y then 366 else 365 := by
  unfold dayFromYear
  split
  case isTrue h =>
    unfold IsLeap at h
    omega
  case isFalse h =>
    unfold IsLeap at h
    omega

/-- The year of a day: an estimate by the mean length of a year, and a correction. -/
def yearOf (d : ℤ) : ℤ :=
  let y := 1970 + 400 * d / 146097
  if d < dayFromYear y then y - 1
  else if d < dayFromYear (y + 1) then y
  else y + 1

/-- A year begins within three days of where years of mean length would. -/
theorem dayFromYear_mem (y : ℤ) : 146097 * (y - 1970) - 1200 ≤ 400 * dayFromYear y
    ∧ 400 * dayFromYear y ≤ 146097 * (y - 1970) + 1200 := by
  unfold dayFromYear
  omega

/-- The year of a day is the one it falls into. -/
theorem yearOf_spec (d : ℤ) : dayFromYear (yearOf d) ≤ d ∧ d < dayFromYear (yearOf d + 1) := by
  unfold yearOf
  dsimp only
  generalize hy : 1970 + 400 * d / 146097 = y
  have hpred := dayFromYear_mem (y - 1)
  have hsucc := dayFromYear_mem (y + 1 + 1)
  split_ifs with hlt hlt'
  · rw [sub_add_cancel]
    exact ⟨by omega, hlt⟩
  · exact ⟨not_lt.mp hlt, hlt'⟩
  · exact ⟨not_lt.mp hlt', by omega⟩

/-! ## Months -/

/-- The days of a year before the month. -/
def daysBefore (leap : Prop) [Decidable leap] (m : ℤ) : ℤ :=
  if m ≤ 0 then 0
  else if m = 1 then 31
  else (if leap then 60 else 59) + (153 * (m - 2) + 2) / 5

/-- The first day of a month. -/
def firstDay (M : ℤ) : ℤ := dayFromYear (M / 12) + daysBefore (IsLeap (M / 12)) (M % 12)

/-- The days of a month. -/
def daysInMonth (M : ℤ) : ℤ :=
  if M % 12 = 1 then if IsLeap (M / 12) then 29 else 28
  else if M % 12 = 3 ∨ M % 12 = 5 ∨ M % 12 = 8 ∨ M % 12 = 10 then 30
  else 31

/-- March to December. -/
theorem daysBefore_of_two_le {leap : Prop} [Decidable leap] {m : ℤ} (h : 2 ≤ m) :
    daysBefore leap m = (if leap then 60 else 59) + (153 * (m - 2) + 2) / 5 := by
  unfold daysBefore
  rw [if_neg (by omega), if_neg (by omega)]

/-- The days before a month are those before the last one and its own. -/
theorem daysBefore_succ {leap : Prop} [Decidable leap] {m : ℤ} (h : 0 ≤ m) (h' : m < 11) :
    daysBefore leap (m + 1) = daysBefore leap m +
      if m = 1 then if leap then 29 else 28
      else if m = 3 ∨ m = 5 ∨ m = 8 ∨ m = 10 then 30
      else 31 := by
  obtain rfl | rfl | hmarch : m = 0 ∨ m = 1 ∨ 2 ≤ m := by omega
  · rfl
  · have hjan : daysBefore leap 1 = 31 := rfl
    rw [daysBefore_of_two_le (by decide), hjan, if_pos rfl]
    split <;> rfl
  · have hfeb : m ≠ 1 := by omega
    rw [daysBefore_of_two_le hmarch, daysBefore_of_two_le (by omega), if_neg hfeb, add_assoc]
    congr 1
    interval_cases m <;> rfl

/-- Months follow one another without a gap. -/
theorem firstDay_succ (M : ℤ) : firstDay (M + 1) = firstDay M + daysInMonth M := by
  have hnonneg : 0 ≤ M % 12 := Int.emod_nonneg M (by decide)
  have hlt : M % 12 < 12 := Int.emod_lt_of_pos M (by decide)
  by_cases hdec : M % 12 = 11
  · have hyear : (M + 1) / 12 = M / 12 + 1 := by omega
    have hmonth : (M + 1) % 12 = 0 := by omega
    have hzero : daysBefore (IsLeap (M / 12 + 1)) 0 = 0 := rfl
    unfold firstDay daysInMonth
    rw [hyear, hmonth, hdec, hzero, dayFromYear_succ, daysBefore_of_two_le (m := 11) (by decide)]
    split_ifs <;> omega
  · have hyear : (M + 1) / 12 = M / 12 := by omega
    have hmonth : (M + 1) % 12 = M % 12 + 1 := by omega
    unfold firstDay daysInMonth
    rw [hyear, hmonth, daysBefore_succ hnonneg (by omega), add_assoc]

theorem daysInMonth_mem (M : ℤ) : 28 ≤ daysInMonth M ∧ daysInMonth M ≤ 31 := by
  unfold daysInMonth
  split_ifs <;> omega

theorem firstDay_strictMono : StrictMono firstDay := by
  refine strictMono_int_of_lt_succ fun M => ?_
  have hdays := daysInMonth_mem M
  rw [firstDay_succ]
  omega

/-- Different months begin four weeks apart. -/
theorem firstDay_add_le {M N : ℤ} (h : M < N) : firstDay M + 28 ≤ firstDay N := by
  have hdays := daysInMonth_mem M
  have hle : firstDay (M + 1) ≤ firstDay N := firstDay_strictMono.monotone h
  rw [firstDay_succ] at hle
  omega

/-- The month of a year that a day is in, the days counted from its first. -/
def monthIn (leap : Prop) [Decidable leap] (day : ℤ) : ℤ :=
  if day < 31 then 0
  else if day < daysBefore leap 2 then 1
  else 2 + (5 * (day - daysBefore leap 2) + 2) / 153

/-- The month of a day of the year is the one it falls into. -/
theorem monthIn_spec {leap : Prop} [Decidable leap] {day : ℤ} (h : 0 ≤ day)
    (h' : day < daysBefore leap 12) :
    0 ≤ monthIn leap day ∧ monthIn leap day < 12 ∧ daysBefore leap (monthIn leap day) ≤ day
      ∧ day < daysBefore leap (monthIn leap day + 1) := by
  have hmarch : daysBefore leap 2 = if leap then 60 else 59 := by
    rw [daysBefore_of_two_le (by decide)]
    exact add_zero _
  have hyear : daysBefore leap 12 = daysBefore leap 2 + 306 := by
    rw [hmarch, daysBefore_of_two_le (by decide)]
    rfl
  have hafter : ∀ m : ℤ, 2 ≤ m → daysBefore leap m = daysBefore leap 2 + (153 * (m - 2) + 2) / 5 := by
    intro m hm
    rw [hmarch, daysBefore_of_two_le hm]
  have hge : 59 ≤ daysBefore leap 2 := by
    rw [hmarch]
    split <;> decide
  unfold monthIn
  split
  case isTrue hjan => exact ⟨by decide, by decide, h, hjan⟩
  case isFalse hjan =>
    split
    case isTrue hfeb => exact ⟨by decide, by decide, not_lt.mp hjan, hfeb⟩
    case isFalse hfeb =>
      generalize hk : day - daysBefore leap 2 = k
      generalize hj : (5 * k + 2) / 153 = j
      have hj₀ : 0 ≤ j := by omega
      have hj₁ : j < 10 := by omega
      rw [hafter (2 + j) (by omega), hafter (2 + j + 1) (by omega)]
      refine ⟨by omega, by omega, ?_, ?_⟩ <;> interval_cases j <;> omega

/-- The month of a day. -/
def monthOf (d : ℤ) : ℤ := 12 * yearOf d + monthIn (IsLeap (yearOf d)) (d - dayFromYear (yearOf d))

/-- The first day of a month, by its year; the thirteenth month is the next January. -/
theorem firstDay_of_year (y : ℤ) {m : ℤ} (hm : 0 ≤ m) (hm' : m ≤ 12) :
    firstDay (12 * y + m) = dayFromYear y + daysBefore (IsLeap y) m := by
  rcases lt_or_eq_of_le hm' with hlt | rfl
  · have hyear : (12 * y + m) / 12 = y := by omega
    have hmonth : (12 * y + m) % 12 = m := by omega
    rw [firstDay, hyear, hmonth]
  · have hyear : (12 * y + 12) / 12 = y + 1 := by omega
    have hmonth : (12 * y + 12) % 12 = 0 := by omega
    rw [firstDay, hyear, hmonth, dayFromYear_succ, daysBefore_of_two_le (m := 12) (by decide)]
    unfold daysBefore
    split_ifs <;> omega

/-- **Every day is in its month.** -/
theorem firstDay_monthOf (d : ℤ) : firstDay (monthOf d) ≤ d ∧ d < firstDay (monthOf d + 1) := by
  obtain ⟨hle, hlt⟩ := yearOf_spec d
  have hyear := firstDay_of_year (yearOf d) (m := 12) (by decide) (by decide)
  have hnext := firstDay_of_year (yearOf d + 1) (m := 0) (by decide) (by decide)
  rw [show 12 * (yearOf d + 1) + 0 = 12 * yearOf d + 12 by omega, hyear] at hnext
  have hzero : daysBefore (IsLeap (yearOf d + 1)) 0 = 0 := rfl
  have hday : 0 ≤ d - dayFromYear (yearOf d) := by omega
  have hday' : d - dayFromYear (yearOf d) < daysBefore (IsLeap (yearOf d)) 12 := by omega
  obtain ⟨hm, hm', hbefore, hafter⟩ := monthIn_spec hday hday'
  unfold monthOf
  rw [add_assoc, firstDay_of_year _ hm hm'.le, firstDay_of_year _ (by omega) (by omega)]
  constructor <;> omega

/-- The month of a day is the one it falls into. -/
theorem monthOf_eq_iff {d M : ℤ} : monthOf d = M ↔ firstDay M ≤ d ∧ d < firstDay (M + 1) := by
  obtain ⟨hle, hlt⟩ := firstDay_monthOf d
  constructor
  · rintro rfl
    exact ⟨hle, hlt⟩
  · rintro ⟨hle', hlt'⟩
    have h := firstDay_strictMono.lt_iff_lt.mp (hle.trans_lt hlt')
    have h' := firstDay_strictMono.lt_iff_lt.mp (hle'.trans_lt hlt)
    omega

/-! ## Local time -/

/-- A day, in milliseconds. -/
def dayLength : ℤ := 86400000

/-- The day of a time. -/
def dayOf (t : ℤ) : ℤ := t / dayLength

/-- A time zone, with all its changes of offset.  Offsets are less than a day.  A local time that
does not exist is read as one after the gap, and no gap is longer than a day. -/
structure TimeZone where
  offset : ℤ → ℤ
  utc : ℤ → ℤ
  lt_utc : ∀ l, l - dayLength < utc l
  utc_lt : ∀ l, utc l < l + dayLength
  le_local : ∀ l, l ≤ utc l + offset (utc l)
  local_le : ∀ l, utc l + offset (utc l) ≤ l + dayLength
  utc_add_day : ∀ l, utc l ≤ utc (l + dayLength)

namespace TimeZone

/-- A zone whose offset never changes. -/
def fixed (o : ℤ) (ho : -dayLength < o) (ho' : o < dayLength) : TimeZone where
  offset _ := o
  utc l := l - o
  lt_utc l := by omega
  utc_lt l := by omega
  le_local l := by omega
  local_le l := by
    unfold dayLength
    omega
  utc_add_day l := by
    unfold dayLength
    omega

/-- Coordinated universal time. -/
def universal : TimeZone := fixed 0 (by decide) (by decide)

variable (z : TimeZone)

/-- The local time at an instant. -/
def localTime (t : ℤ) : ℤ := t + z.offset t

/-- The local date at an instant. -/
def date (t : ℤ) : ℤ := dayOf (z.localTime t)

/-- When a date begins. -/
def midnight (d : ℤ) : ℤ := z.utc (d * dayLength)

/-- When the first of a month begins. -/
def monthStart (M : ℤ) : ℤ := z.midnight (firstDay M)

/-- The UTC date at the beginning of a month. -/
def monthDate (M : ℤ) : ℤ := dayOf (z.monthStart M)

variable {z}

theorem midnight_mono : Monotone z.midnight :=
  monotone_int_of_le_succ fun d => by
    have h := z.utc_add_day (d * dayLength)
    rwa [← add_one_mul] at h

theorem midnight_lt {d d' : ℤ} (h : d + 2 ≤ d') : z.midnight d < z.midnight d' := by
  have hlt := z.utc_lt (d * dayLength)
  have hgt := z.lt_utc (d' * dayLength)
  unfold midnight dayLength at *
  omega

/-- A skipped local time is put off by a day at most. -/
theorem date_utc (l : ℤ) : z.date (z.utc l) = dayOf l ∨ z.date (z.utc l) = dayOf l + 1 := by
  have hge := z.le_local l
  have hle := z.local_le l
  unfold date localTime dayOf dayLength at *
  omega

/-- **The first of a month begins in that month**, whatever is skipped. -/
theorem monthOf_date_monthStart (M : ℤ) : monthOf (z.date (z.monthStart M)) = M := by
  have hdays := daysInMonth_mem M
  have hday : dayOf (firstDay M * dayLength) = firstDay M := Int.mul_ediv_cancel _ (by decide)
  have hdate := date_utc (z := z) (firstDay M * dayLength)
  rw [hday] at hdate
  rw [monthOf_eq_iff, firstDay_succ]
  unfold monthStart midnight
  omega

/-- It begins on its first day in UTC, or on the day before. -/
theorem monthDate_mem (M : ℤ) : firstDay M - 1 ≤ z.monthDate M ∧ z.monthDate M ≤ firstDay M := by
  have hlt := z.utc_lt (firstDay M * dayLength)
  have hgt := z.lt_utc (firstDay M * dayLength)
  unfold monthDate monthStart midnight dayOf dayLength at *
  omega

theorem monthDate_add_le {M N : ℤ} (h : M < N) : z.monthDate M + 27 ≤ z.monthDate N := by
  have hM := monthDate_mem (z := z) M
  have hN := monthDate_mem (z := z) N
  have hfirst := firstDay_add_le h
  omega

theorem monthDate_strictMono : StrictMono z.monthDate := fun M N h => by
  have hle := monthDate_add_le (z := z) h
  omega

end TimeZone

end Calendar

end Machinery
