import AlarmQuery.Time.Calendar
import Mathlib.Order.Monotone.Basic
import Mathlib.Algebra.Order.Ring.Int
import Mathlib.Algebra.BigOperators.Group.List.Basic
import Mathlib.Data.List.GetD

/-!
# Days and dates

`Date.ofDays` and `Date.toDays` undo each other.  Months are numbered through all the years here,
so that a year has no end to look at: `daysBeforeMonth` counts the days before a month, and each
month begins where the one before it ends.
-/

namespace AlarmQuery

/-! ## Years -/

/-- The number of days of a year. -/
def yearLength (year : Int) : Nat := if isLeapYear year then 366 else 365

theorem sum_monthLengths (year : Int) :
    (monthLengths (isLeapYear year)).sum = yearLength year := by
  rw [yearLength]
  cases isLeapYear year <;> rfl

theorem isLeapYear_iff {year : Int} :
    isLeapYear year = true ↔ year % 4 = 0 ∧ (year % 100 ≠ 0 ∨ year % 400 = 0) := by
  simp [isLeapYear]

theorem daysBeforeYear_succ (year : Int) :
    daysBeforeYear (year + 1) = daysBeforeYear year + yearLength year := by
  rw [yearLength]
  split
  · rename_i leap
    rw [isLeapYear_iff] at leap
    simp only [daysBeforeYear]
    omega
  · rename_i common
    rw [isLeapYear_iff] at common
    simp only [daysBeforeYear]
    omega

section

variable {cycle : Int} {century quad single : Nat}

/-- The days before a year that is given by its place in four hundred years. -/
theorem daysBeforeYear_place (century_le : century ≤ 3) (quad_le : quad ≤ 24)
    (single_le : single ≤ 3) :
    daysBeforeYear (400 * cycle + (100 * century + 4 * quad + single : Nat) + 1) =
      146097 * cycle + (36524 * century + 1461 * quad + 365 * single : Nat) := by
  simp only [daysBeforeYear]
  omega

/-- The last of four years is a leap year, but for the last of a century that is not the last one
of its cycle. -/
theorem isLeapYear_place (century_le : century ≤ 3) (quad_le : quad ≤ 24)
    (single_le : single ≤ 3) :
    isLeapYear (400 * cycle + (100 * century + 4 * quad + single : Nat) + 1) = true ↔
      single = 3 ∧ (quad ≠ 24 ∨ century = 3) := by
  rw [isLeapYear_iff]
  omega

end

/-- A year has as many days as are left for it when a day is placed in its century, four years and
year.  The last of them takes a day more. -/
theorem length_of_place {day century inCentury quad inQuad single : Nat} (day_lt : day < 146097)
    (century_eq : century = min (day / 36524) 3) (inCentury_eq : inCentury = day - 36524 * century)
    (quad_eq : quad = inCentury / 1461) (inQuad_eq : inQuad = inCentury - 1461 * quad)
    (single_eq : single = min (inQuad / 365) 3) :
    century ≤ 3 ∧ quad ≤ 24 ∧ single ≤ 3 ∧
      36524 * century + 1461 * quad + 365 * single + (inQuad - 365 * single) = day ∧
      inQuad - 365 * single < if single = 3 ∧ (quad ≠ 24 ∨ century = 3) then 366 else 365 := by
  have century_le : century ≤ 3 := by omega
  have inCentury_lt : inCentury < if century = 3 then 36525 else 36524 := by split <;> omega
  have quad_le : quad ≤ 24 := by split at inCentury_lt <;> omega
  have inQuad_lt : inQuad < if quad = 24 ∧ century ≠ 3 then 1460 else 1461 := by
    split <;> split at inCentury_lt <;> omega
  refine ⟨century_le, quad_le, by omega, by omega, ?_⟩
  split <;> split at inQuad_lt <;> omega

/-- A count of days is split into a year and a day of this year. -/
theorem yearDay_ofDays (days : Int) :
    daysBeforeYear (YearDay.ofDays days).year + (YearDay.ofDays days).day = days ∧
      (YearDay.ofDays days).day < yearLength (YearDay.ofDays days).year := by
  have inCycle_lt : (days % 146097).toNat < 146097 := by omega
  rcases length_of_place inCycle_lt rfl rfl rfl rfl rfl with
    ⟨century_le, quad_le, single_le, sum, day_lt⟩
  rw [YearDay.ofDays]
  dsimp only
  rw [daysBeforeYear_place century_le quad_le single_le, yearLength,
    if_congr (isLeapYear_place century_le quad_le single_le) rfl rfl]
  exact ⟨by omega, day_lt⟩

/-! ## Months -/

/-- The number of a month that is counted through all the years. -/
def Date.monthNumber (date : Date) : Int := 12 * date.year + (date.month - 1 : Nat)

/-- The number of days of a month. -/
def monthDays (number : Int) : Nat := monthLength (number / 12) ((number % 12).toNat + 1)

/-- The days from the first of January 1970 to the first day of a month. -/
def daysBeforeMonth (number : Int) : Int :=
  daysBeforeYear (number / 12) - epochDays +
    (((monthLengths (isLeapYear (number / 12))).take (number % 12).toNat).sum : Nat)

@[simp]
theorem length_monthLengths (leap : Bool) : (monthLengths leap).length = 12 := rfl

theorem daysBeforeMonth_succ (number : Int) :
    daysBeforeMonth (number + 1) = daysBeforeMonth number + monthDays number := by
  have inside : (number % 12).toNat < (monthLengths (isLeapYear (number / 12))).length := by
    rw [length_monthLengths]
    omega
  have next := List.sum_take_succ _ _ inside
  rw [← List.getD_eq_getElem _ 0 inside] at next
  have days : monthDays number =
      (monthLengths (isLeapYear (number / 12))).getD (number % 12).toNat 0 := rfl
  rw [← days] at next
  by_cases december : number % 12 = 11
  · have year : (number + 1) / 12 = number / 12 + 1 := by omega
    have month : ((number + 1) % 12).toNat = 0 := by omega
    have all : (number % 12).toNat + 1 = (monthLengths (isLeapYear (number / 12))).length := by
      rw [length_monthLengths]
      omega
    rw [all, List.take_length, sum_monthLengths] at next
    rw [daysBeforeMonth, daysBeforeMonth, year, month, daysBeforeYear_succ, next]
    simp
    omega
  · have year : (number + 1) / 12 = number / 12 := by omega
    have month : ((number + 1) % 12).toNat = (number % 12).toNat + 1 := by omega
    rw [daysBeforeMonth, daysBeforeMonth, year, month, next]
    omega

theorem monthLength_mem (year : Int) {month : Nat} (least : 1 ≤ month) (most : month ≤ 12) :
    monthLength year month ∈ monthLengths (isLeapYear year) := by
  have inside : month - 1 < (monthLengths (isLeapYear year)).length := by
    rw [length_monthLengths]
    omega
  rw [monthLength, List.getD_eq_getElem _ _ inside]
  exact List.getElem_mem inside

theorem monthLength_bounds (year : Int) {month : Nat} (least : 1 ≤ month) (most : month ≤ 12) :
    0 < monthLength year month ∧ monthLength year month ≤ 31 := by
  have bounds : ∀ leap, ∀ length ∈ monthLengths leap, 0 < length ∧ length ≤ 31 := by decide
  exact bounds _ _ (monthLength_mem year least most)

theorem monthDays_pos (number : Int) : 0 < monthDays number :=
  (monthLength_bounds _ (by omega) (by omega)).1

theorem daysBeforeMonth_le {first second : Int} (le : first ≤ second) :
    daysBeforeMonth first ≤ daysBeforeMonth second := by
  have monotone : Monotone daysBeforeMonth := by
    apply monotone_int_of_le_succ
    intro number
    rw [daysBeforeMonth_succ]
    omega
  exact monotone le

/-! ## Dates -/

namespace Date

theorem IsValid.monthNumber_div {date : Date} (valid : date.IsValid) :
    date.monthNumber / 12 = date.year := by
  rcases valid with ⟨least, most, _⟩
  rw [monthNumber]
  omega

theorem IsValid.monthNumber_mod {date : Date} (valid : date.IsValid) :
    (date.monthNumber % 12).toNat = date.month - 1 := by
  rcases valid with ⟨least, most, _⟩
  rw [monthNumber]
  omega

theorem IsValid.day_le {date : Date} (valid : date.IsValid) :
    date.day ≤ monthDays date.monthNumber := by
  have month : date.month - 1 + 1 = date.month := Nat.sub_add_cancel valid.1
  rw [monthDays, valid.monthNumber_div, valid.monthNumber_mod, month]
  exact valid.2.2.2

/-- A date lies so many days behind the beginning of its month. -/
theorem IsValid.toDays_eq {date : Date} (valid : date.IsValid) :
    date.toDays = daysBeforeMonth date.monthNumber + (date.day - 1 : Nat) := by
  rw [toDays, daysBeforeMonth, valid.monthNumber_div, valid.monthNumber_mod, List.sum_eq_foldr]
  push_cast
  omega

/-- The days of a later month are later. -/
theorem toDays_lt_of_monthNumber_lt {first second : Date} (firstValid : first.IsValid)
    (secondValid : second.IsValid) (earlier : first.monthNumber < second.monthNumber) :
    first.toDays < second.toDays := by
  have next : daysBeforeMonth (first.monthNumber + 1) ≤ daysBeforeMonth second.monthNumber :=
    daysBeforeMonth_le earlier
  rw [daysBeforeMonth_succ] at next
  have inMonth := firstValid.day_le
  have begun : 1 ≤ first.day := firstValid.2.2.1
  rw [firstValid.toDays_eq, secondValid.toDays_eq]
  omega

/-- Different dates are different days. -/
theorem toDays_injective {first second : Date} (firstValid : first.IsValid)
    (secondValid : second.IsValid) (same : first.toDays = second.toDays) : first = second := by
  have sameMonth : first.monthNumber = second.monthNumber := by
    rcases lt_trichotomy first.monthNumber second.monthNumber with earlier | equal | later
    · have := toDays_lt_of_monthNumber_lt firstValid secondValid earlier
      omega
    · exact equal
    · have := toDays_lt_of_monthNumber_lt secondValid firstValid later
      omega
  have year : first.year = second.year := by
    rw [← firstValid.monthNumber_div, sameMonth, secondValid.monthNumber_div]
  have month : first.month - 1 = second.month - 1 := by
    rw [← firstValid.monthNumber_mod, sameMonth, secondValid.monthNumber_mod]
  rw [firstValid.toDays_eq, secondValid.toDays_eq, sameMonth] at same
  rcases firstValid with ⟨firstMonth, _, firstDay, _⟩
  rcases secondValid with ⟨secondMonth, _, secondDay, _⟩
  rcases first with ⟨firstYear, _, _⟩
  rcases second with ⟨secondYear, _, _⟩
  simp only at year month same firstMonth firstDay secondMonth secondDay
  rw [Date.mk.injEq]
  exact ⟨year, by omega, by omega⟩

end Date

/-- The months that a day of a year is split into are whole, and what is left is a day of the next
one. -/
theorem splitMonths_spec {lengths : List Nat} {day : Nat} (inside : day < lengths.sum) :
    (splitMonths lengths day).1 < lengths.length ∧
      (lengths.take (splitMonths lengths day).1).sum + (splitMonths lengths day).2 = day ∧
      (splitMonths lengths day).2 < lengths.getD (splitMonths lengths day).1 0 := by
  induction lengths generalizing day with
  | nil => exact absurd inside (Nat.not_lt_zero day)
  | cons length lengths ih =>
    rw [splitMonths]
    split
    · rename_i first
      simpa using first
    · rename_i later
      rw [List.sum_cons] at inside
      rcases @ih (day - length) (by omega) with ⟨index, sum, inMonth⟩
      refine ⟨by simpa using index, ?_, by simpa using inMonth⟩
      rw [List.take_succ_cons, List.sum_cons]
      omega

namespace Date

theorem ofDays_spec (days : Int) :
    (ofDays days).IsValid ∧ (ofDays days).toDays = days := by
  rcases yearDay_ofDays (days + epochDays) with ⟨sum, inYear⟩
  rw [← sum_monthLengths] at inYear
  rcases splitMonths_spec inYear with ⟨index, months, inMonth⟩
  rw [length_monthLengths] at index
  have valid : (ofDays days).IsValid :=
    ⟨Nat.le_add_left 1 _, by exact index, Nat.le_add_left 1 _, by exact inMonth⟩
  refine ⟨valid, ?_⟩
  have toDays : (ofDays days).toDays =
      daysBeforeYear (YearDay.ofDays (days + epochDays)).year - epochDays +
        (YearDay.ofDays (days + epochDays)).day := by
    rw [← months, List.sum_eq_foldr]
    rfl
  rw [toDays]
  omega

/-- Every day has a date. -/
theorem isValid_ofDays (days : Int) : (ofDays days).IsValid := (ofDays_spec days).1

@[simp]
theorem toDays_ofDays (days : Int) : (ofDays days).toDays = days := (ofDays_spec days).2

/-- A date is the only one of its day. -/
theorem ofDays_toDays {date : Date} (valid : date.IsValid) : ofDays date.toDays = date :=
  toDays_injective (isValid_ofDays _) valid (toDays_ofDays _)

end Date

end AlarmQuery
