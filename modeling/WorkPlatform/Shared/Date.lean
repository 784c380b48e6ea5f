import WorkPlatform.Machinery.Calendar

/-!
# Shared/Date — what the code uses of JavaScript's `Date`

    new Date(y, m, d)       local, months from 0, out of range carried over, years 0 to 99 are 19xx
    getFullYear … getDate   local
    setDate                 local, the time of day kept
    toISOString             UTC; ten characters of it are the date, of a year of four digits
-/

namespace WorkPlatform.Date

open Machinery.Calendar

variable (z : TimeZone)

/-- `MakeDay`. -/
def makeDay (year month date : ℤ) : ℤ := firstDay (12 * year + month) + date - 1

/-- `MakeFullYear`. -/
def makeFullYear (year : ℤ) : ℤ := if 0 ≤ year ∧ year ≤ 99 then 1900 + year else year

/-- `new Date(year, month, date)`. -/
def new (year month date : ℤ) : ℤ := z.midnight (makeDay (makeFullYear year) month date)

def getFullYear (t : ℤ) : ℤ := monthOf (z.date t) / 12

def getMonth (t : ℤ) : ℤ := monthOf (z.date t) % 12

def getDate (t : ℤ) : ℤ := z.date t - firstDay (monthOf (z.date t)) + 1

/-- `setDate`. -/
def setDate (t date : ℤ) : ℤ :=
  z.utc (makeDay (getFullYear z t) (getMonth z t) date * dayLength + z.localTime t % dayLength)

/-- The first ten characters of `toISOString`, as a date. -/
def toISODate (t : ℤ) : ℤ := dayOf t

/-- A date whose text is four digits, two and two, and which PostgreSQL can read. -/
def Readable (d : ℤ) : Prop := 1 ≤ yearOf d ∧ yearOf d ≤ 9999

instance (d : ℤ) : Decidable (Readable d) := inferInstanceAs (Decidable (_ ∧ _))

variable {z}

/-- The first of a month, from any year and any number of months after it. -/
theorem new_first (year month : ℤ) :
    new z year month 1 = z.monthStart (12 * makeFullYear year + month) := by
  unfold new makeDay TimeZone.monthStart
  rw [add_sub_cancel_right]

/-- Counting days back from a date. -/
theorem date_setDate (t n : ℤ) : z.date (setDate z t (getDate z t - n)) = z.date t - n
    ∨ z.date (setDate z t (getDate z t - n)) = z.date t - n + 1 := by
  have hday : makeDay (getFullYear z t) (getMonth z t) (getDate z t - n) = z.date t - n := by
    unfold makeDay getFullYear getMonth getDate
    rw [Int.mul_ediv_add_emod]
    omega
  have hlocal : dayOf ((z.date t - n) * dayLength + z.localTime t % dayLength) = z.date t - n := by
    unfold dayOf dayLength
    omega
  unfold setDate
  rw [hday]
  have h := TimeZone.date_utc (z := z) ((z.date t - n) * dayLength + z.localTime t % dayLength)
  rwa [hlocal] at h

end WorkPlatform.Date
