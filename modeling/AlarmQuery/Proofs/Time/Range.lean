import AlarmQuery.Proofs.Time.Absolute
import AlarmQuery.Proofs.Time.Earlier
import AlarmQuery.Time.Input
import Mathlib.Data.List.Induction

/-!
# What is read belongs to the calendar

Whatever a user types, the instant that it stands for is one of the calendar.  The digits that a
number may have bound it, and an offset from universal time is shorter than a day.
-/

namespace AlarmQuery

/-! ## Instants of the calendar -/

namespace Instant

/-- An instant belongs to the calendar.  Beyond a whole second it lies within a leap second, which
ends a minute. -/
structure IsValid (instant : Instant) : Prop where
  inRange : instant.date.InRange
  nanos : instant.nanos < 1000000000 ∨
    (instant.second % 60 = 59 ∧ instant.nanos < 2000000000)

theorem IsValid.inCalendar {instant : Instant} (valid : instant.IsValid) :
    instant.InCalendar where
  inRange := valid.inRange
  nanos := by
    have := valid.nanos
    omega

theorem date_ofDateTime {date : Date} {time : TimeOfDay} (dateValid : date.IsValid)
    (timeValid : time.IsValid) : (ofDateTime date time).date = date := by
  rcases timeValid with ⟨hour, minute, second⟩
  have day : (ofDateTime date time).second / 86400 = date.toDays := by
    simp only [ofDateTime]
    split <;> omega
  rw [Instant.date, day, Date.ofDays_toDays dateValid]

theorem isValid_ofDateTime {date : Date} {time : TimeOfDay} (dateValid : date.IsValid)
    (inRange : date.InRange) (timeValid : time.IsValid) (nanos : time.nanos < 1000000000) :
    (ofDateTime date time).IsValid := by
  constructor
  · rw [date_ofDateTime dateValid timeValid]
    exact inRange
  · rcases timeValid with ⟨hour, minute, second⟩
    simp only [ofDateTime]
    split
    · right
      omega
    · left
      omega

theorem year_le_date_iff {year : Int} {instant : Instant} :
    year ≤ instant.date.year ↔ (Date.mk year 1 1).toDays ≤ instant.second / 86400 := by
  rw [date, ← Date.toDays_newYear_le_iff (Date.isValid_ofDays _), Date.toDays_ofDays]

/-- An offset from universal time does not lead out of the calendar from a year of four digits. -/
theorem IsValid.shifted {instant : Instant} (valid : instant.IsValid)
    (least : 0 ≤ instant.date.year) (most : instant.date.year < 10 ^ 4) {minutes : Int}
    (short : minutes.natAbs < 1440) :
    IsValid { instant with second := instant.second - 60 * minutes } := by
  rw [year_le_date_iff] at least
  rw [← not_le, year_le_date_iff] at most
  have first : (Date.mk Date.firstYear 1 1).toDays < (Date.mk 0 1 1).toDays := by
    decide +kernel
  have last : (Date.mk (10 ^ 4) 1 1).toDays < (Date.mk (Date.lastYear + 1) 1 1).toDays := by
    decide +kernel
  constructor
  · constructor
    · rw [year_le_date_iff]
      dsimp only
      omega
    · rw [← Int.lt_add_one_iff, ← not_le, year_le_date_iff]
      dsimp only
      omega
  · have nanos := valid.nanos
    dsimp only
    omega

end Instant

/-! ## Numbers that are read -/

theorem Text.digitsValue_lt {digits : Text} (digit : ∀ c ∈ digits, c.isDigit = true) :
    Text.digitsValue digits < 10 ^ digits.length := by
  induction digits using List.reverseRecOn with
  | nil => decide
  | append_singleton digits c ih =>
    have last := isDigit_iff.1 (digit c (by simp))
    have zero : '0'.toNat = 48 := rfl
    have before := ih fun other member => digit other (List.mem_append_left _ member)
    have value : digitsValue (digits ++ [c]) = 10 * digitsValue digits + (c.toNat - '0'.toNat) := by
      rw [digitsValue, List.foldl_append]
      rfl
    rw [value, List.length_append, List.length_singleton, pow_succ]
    omega

theorem takeNumber?_lt {least most number : Nat} {text rest : Text}
    (taken : takeNumber? least most text = some (number, rest)) : number < 10 ^ most := by
  rw [takeNumber?] at taken
  split at taken
  · cases taken
  · obtain ⟨rfl, -⟩ := Prod.mk.inj (Option.some.inj taken)
    have digit : ∀ c ∈ (text.take most).takeWhile Char.isDigit, c.isDigit = true :=
      fun c member => List.mem_takeWhile_imp member
    have length : ((text.take most).takeWhile Char.isDigit).length ≤ most :=
      (List.takeWhile_prefix _).length_le.trans (List.length_take_le _ _)
    exact lt_of_lt_of_le (Text.digitsValue_lt digit) (Nat.pow_le_pow_right (by decide) length)

theorem takeNanos?_lt {nanos : Nat} {text rest : Text}
    (taken : takeNanos? text = some (nanos, rest)) : nanos < 1000000000 := by
  rw [takeNanos?] at taken
  split at taken
  · cases taken
  · obtain ⟨rfl, -⟩ := Prod.mk.inj (Option.some.inj taken)
    have digit : ∀ c ∈ (text.takeWhile Char.isDigit).take 9, c.isDigit = true :=
      fun c member => List.mem_takeWhile_imp (List.mem_of_mem_take member)
    have length : ((text.takeWhile Char.isDigit).take 9).length ≤ 9 := List.length_take_le _ _
    calc Text.digitsValue ((text.takeWhile Char.isDigit).take 9) *
          10 ^ (9 - ((text.takeWhile Char.isDigit).take 9).length)
      _ < 10 ^ ((text.takeWhile Char.isDigit).take 9).length *
          10 ^ (9 - ((text.takeWhile Char.isDigit).take 9).length) :=
        Nat.mul_lt_mul_of_pos_right (Text.digitsValue_lt digit) (Nat.pow_pos (by decide))
      _ = 10 ^ 9 := by rw [← pow_add, Nat.add_sub_cancel' length]
      _ = 1000000000 := by decide

theorem takeFraction?_lt {nanos : Nat} {text rest : Text}
    (taken : takeFraction? text = some (nanos, rest)) : nanos < 1000000000 := by
  rw [takeFraction?.eq_def] at taken
  split at taken
  · exact takeNanos?_lt taken
  · obtain ⟨rfl, -⟩ := Prod.mk.inj (Option.some.inj taken)
    decide

/-- An offset is shorter than a day. -/
theorem natAbs_lt_of_takeOffset? {offset : Int} {text rest : Text}
    (taken : takeOffset? text = some (offset, rest)) : offset.natAbs < 1440 := by
  have hours {sign : Int} (one : sign.natAbs = 1) {text : Text}
      (taken : ((takeNumber? 2 2 text).bind fun hour => (takeMark? ':' hour.2).bind fun rest =>
        (takeNumber? 2 2 rest).bind fun minute =>
          if hour.1 < 24 ∧ minute.1 < 60 then
            some (sign * (hour.1 * 60 + minute.1 : Nat), minute.2)
          else none) = some (offset, rest)) : offset.natAbs < 1440 := by
    rcases Option.bind_eq_some_iff.1 taken with ⟨hour, _, taken⟩
    rcases Option.bind_eq_some_iff.1 taken with ⟨_, _, taken⟩
    rcases Option.bind_eq_some_iff.1 taken with ⟨minute, _, taken⟩
    split at taken
    · rename_i bounds
      obtain ⟨rfl, -⟩ := Prod.mk.inj (Option.some.inj taken)
      rw [Int.natAbs_mul, one]
      omega
    · cases taken
  cases text with
  | nil => cases taken
  | cons c text =>
    simp only [takeOffset?] at taken
    split at taken
    · obtain ⟨rfl, -⟩ := Prod.mk.inj (Option.some.inj taken)
      decide
    · split at taken
      · exact hours rfl taken
      · split at taken
        · exact hours rfl taken
        · cases taken

theorem exists_parts_of_internetTime? {text : Text} {instant : Instant}
    (read : internetTime? text = some instant) :
    ∃ (parts : TimeParts) (whole : Instant) (offset : Int), parts.instant? = some whole ∧
      0 ≤ parts.year ∧ parts.year < 10 ^ 4 ∧ parts.nanos < 1000000000 ∧ offset.natAbs < 1440 ∧
      instant = { whole with second := whole.second - 60 * offset } := by
  rw [internetTime?] at read
  rcases Option.bind_eq_some_iff.1 read with ⟨⟨year, _⟩, takenYear, read⟩
  rcases Option.bind_eq_some_iff.1 read with ⟨_, _, read⟩
  rcases Option.bind_eq_some_iff.1 read with ⟨⟨month, _⟩, _, read⟩
  rcases Option.bind_eq_some_iff.1 read with ⟨_, _, read⟩
  rcases Option.bind_eq_some_iff.1 read with ⟨⟨day, _⟩, _, read⟩
  dsimp only at read
  split at read
  · split at read
    · rcases Option.bind_eq_some_iff.1 read with ⟨_, _, read⟩
      rcases Option.bind_eq_some_iff.1 read with ⟨⟨hour, _⟩, _, read⟩
      rcases Option.bind_eq_some_iff.1 read with ⟨_, _, read⟩
      rcases Option.bind_eq_some_iff.1 read with ⟨⟨minute, _⟩, _, read⟩
      rcases Option.bind_eq_some_iff.1 read with ⟨_, _, read⟩
      rcases Option.bind_eq_some_iff.1 read with ⟨⟨second, _⟩, _, read⟩
      rcases Option.bind_eq_some_iff.1 read with ⟨⟨nanos, _⟩, takenNanos, read⟩
      rcases Option.bind_eq_some_iff.1 read with ⟨⟨offset, rest⟩, takenOffset, read⟩
      dsimp only at read
      split at read
      · cases read
      · rcases Option.bind_eq_some_iff.1 read with ⟨whole, isWhole, read⟩
        have small : (year : Int) < 10 ^ 4 := by exact_mod_cast takeNumber?_lt takenYear
        exact ⟨_, whole, offset, isWhole, Int.natCast_nonneg _, small,
          takeFraction?_lt takenNanos, natAbs_lt_of_takeOffset? takenOffset,
          (Option.some.inj read).symm⟩
    · cases read
  · cases read

namespace TimeParts

theorem nanos_lt_of_takeElement? {parts next : TimeParts} {element : TimeElement}
    {text rest : Text} (nanos : parts.nanos < 1000000000)
    (taken : parts.takeElement? element text = some (next, rest)) : next.nanos < 1000000000 := by
  cases element
  case fraction =>
    rcases Option.map_eq_some_iff.1 taken with ⟨⟨number, _⟩, takenNanos, same⟩
    rw [← (Prod.mk.inj same).1]
    exact takeFraction?_lt takenNanos
  case blanks =>
    rw [← (Prod.mk.inj (Option.some.inj taken)).1]
    exact nanos
  all_goals
    rcases Option.map_eq_some_iff.1 taken with ⟨_, _, same⟩
    rw [← (Prod.mk.inj same).1]
    exact nanos

theorem nanos_lt_of_ofFormat? {format : List TimeElement} {start parts : TimeParts} {text : Text}
    (nanos : start.nanos < 1000000000) (read : ofFormat? format start text = some parts) :
    parts.nanos < 1000000000 := by
  induction format generalizing start text with
  | nil =>
    cases text with
    | nil =>
      rw [← Option.some.inj read]
      exact nanos
    | cons c rest => cases read
  | cons element others ih =>
    rw [ofFormat?] at read
    rcases Option.bind_eq_some_iff.1 read with ⟨⟨next, rest⟩, taken, read⟩
    exact ih (nanos_lt_of_takeElement? nanos taken) read

theorem instant?_spec {parts : TimeParts} {instant : Instant}
    (nanos : parts.nanos < 1000000000) (isInstant : parts.instant? = some instant) :
    instant.IsValid ∧ instant.date.year = parts.year := by
  rw [instant?] at isInstant
  split at isInstant
  · rename_i valid
    rw [← Option.some.inj isInstant, Instant.date_ofDateTime valid.1 valid.2.2]
    exact ⟨Instant.isValid_ofDateTime valid.1 valid.2.1 valid.2.2 nanos, rfl⟩
  · cases isInstant

end TimeParts

/-! ## What is read belongs to the calendar -/

namespace Instant

theorem isValid_of_absoluteTime? {text : Text} {instant : Instant}
    (read : absoluteTime? text = some instant) : instant.IsValid := by
  rw [absoluteTime?, Option.or_eq_some_iff] at read
  rcases read with internet | ⟨_, lenient⟩
  · rcases exists_parts_of_internetTime? internet with
      ⟨parts, whole, offset, isWhole, least, most, nanos, short, rfl⟩
    rcases TimeParts.instant?_spec nanos isWhole with ⟨valid, year⟩
    rw [← year] at least most
    exact valid.shifted least most short
  · rcases List.exists_of_findSome?_eq_some lenient with ⟨format, _, found⟩
    rcases Option.bind_eq_some_iff.1 found with ⟨parts, ofFormat, isInstant⟩
    have nanos := TimeParts.nanos_lt_of_ofFormat? (by decide) ofFormat
    exact (TimeParts.instant?_spec nanos isInstant).1

/-- What lies before an instant of the calendar lies in no leap second but its own one. -/
theorem inCalendar_of_liesBefore {amount : TimeAmount} {now earlier : Instant}
    (inCalendar : now.InCalendar) (before : amount.LiesBefore now earlier) :
    earlier.InCalendar := by
  rcases before with ⟨start, months, _, millis, inRange⟩
  refine ⟨inRange, ?_⟩
  have := inCalendar.nanos
  have := months.nanos
  have elapsed := millis.elapsed
  have := millis.nanos
  simp only [Instant.elapsed] at elapsed
  omega

theorem inCalendar_of_ofInput? {text : Text} {now : Instant} (inCalendar : now.InCalendar)
    {instant : Instant} (read : ofInput? text now = some instant) : instant.InCalendar := by
  rw [ofInput?] at read
  split at read
  · cases read
  · rcases Option.or_eq_some_iff.1 read with absolute | ⟨_, relative⟩
    · exact (isValid_of_absoluteTime? absolute).inCalendar
    · rcases Option.bind_eq_some_iff.1 relative with ⟨amount, _, before⟩
      exact inCalendar_of_liesBefore inCalendar
        ((TimeAmount.before?_eq_some_iff inCalendar.nanos).1 before)

end Instant

end AlarmQuery
