/-!
# The proleptic Gregorian calendar

Days are counted from the first of January 1970.  `Date.ofDays` and `Date.toDays` go between such
counts and dates.
-/

namespace AlarmQuery

/-- A day of the calendar.  Months and days of a month count from one. -/
structure Date where
  year : Int
  month : Nat
  day : Nat
deriving DecidableEq, Repr

/-- Whether a year has a leap day. -/
def isLeapYear (year : Int) : Bool :=
  year % 4 == 0 && (year % 100 != 0 || year % 400 == 0)

/-- The lengths of the months of a year, in order. -/
def monthLengths (leap : Bool) : List Nat :=
  [31, if leap then 29 else 28, 31, 30, 31, 30, 31, 31, 30, 31, 30, 31]

/-- The length of a month that is given by its number. -/
def monthLength (year : Int) (month : Nat) : Nat :=
  (monthLengths (isLeapYear year)).getD (month - 1) 0

/-- The days from the first of January of the year one to the first of January of `year`. -/
def daysBeforeYear (year : Int) : Int :=
  365 * (year - 1) + (year - 1) / 4 - (year - 1) / 100 + (year - 1) / 400

/-- The days from the first of January of the year one to the first of January 1970. -/
def epochDays : Int := 719162

/-- Splits a day of a year, counted from zero, into whole months and a day of the next month. -/
def splitMonths : List Nat → Nat → Nat × Nat
  | [], day => (0, day)
  | length :: others, day =>
    if day < length then (0, day)
    else ((splitMonths others (day - length)).1 + 1, (splitMonths others (day - length)).2)

/-- A day of a year that is counted from zero. -/
structure YearDay where
  year : Int
  day : Nat

/-- The year and the day of it that is so many days after the first of January of the year one.
Four hundred years have a fixed number of days.  Within them each century, each four years and
each year but the last are equally long, too. -/
def YearDay.ofDays (days : Int) : YearDay :=
  let cycle := days / 146097
  let inCycle := (days % 146097).toNat
  let century := min (inCycle / 36524) 3
  let inCentury := inCycle - 36524 * century
  let quad := inCentury / 1461
  let inQuad := inCentury - 1461 * quad
  let single := min (inQuad / 365) 3
  ⟨400 * cycle + (100 * century + 4 * quad + single : Nat) + 1, inQuad - 365 * single⟩

namespace Date

/-- Whether there is such a day. -/
def IsValid (date : Date) : Prop :=
  1 ≤ date.month ∧ date.month ≤ 12 ∧ 1 ≤ date.day ∧ date.day ≤ monthLength date.year date.month

instance (date : Date) : Decidable date.IsValid :=
  inferInstanceAs (Decidable (_ ∧ _ ∧ _ ∧ _))

/-- The days from the first of January 1970 to a date. -/
def toDays (date : Date) : Int :=
  daysBeforeYear date.year - epochDays +
    (((monthLengths (isLeapYear date.year)).take (date.month - 1)).foldr (· + ·) 0 +
      (date.day - 1) : Nat)

/-- The date so many days after the first of January 1970. -/
def ofDays (days : Int) : Date :=
  let yearDay := YearDay.ofDays (days + epochDays)
  let (months, day) := splitMonths (monthLengths (isLeapYear yearDay.year)) yearDay.day
  ⟨yearDay.year, months + 1, day + 1⟩

/-- The same day so many months earlier, or the last day of that month when it is shorter. -/
def subMonths (date : Date) (months : Nat) : Date :=
  let total : Int := 12 * date.year + (date.month - 1 : Nat) - months
  let year := total / 12
  let month := (total % 12).toNat + 1
  ⟨year, month, min date.day (monthLength year month)⟩

/-- The first and the last year of the calendar. -/
def firstYear : Int := -262143

@[inherit_doc firstYear]
def lastYear : Int := 262142

/-- Whether a date belongs to the calendar. -/
def InRange (date : Date) : Prop := firstYear ≤ date.year ∧ date.year ≤ lastYear

instance (date : Date) : Decidable date.InRange := inferInstanceAs (Decidable (_ ∧ _))

end Date

end AlarmQuery
