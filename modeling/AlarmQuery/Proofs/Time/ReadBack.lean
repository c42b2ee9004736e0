import AlarmQuery.Proofs.Time.Range
import AlarmQuery.Proofs.Time.Written

/-!
# Timestamps are read back

What is written for an instant of the calendar is read as this instant, down to the millisecond.
Every instant that is read belongs to the calendar, so a converted text stays as it is when it is
converted again.  A present within a leap second in the middle of a minute is written like the
second behind it, and read as that second.
-/

namespace AlarmQuery

/-! ## Numbers of instants -/

namespace Instant

/-- An instant down to whole milliseconds. -/
def truncated (instant : Instant) : Instant :=
  ⟨instant.second, instant.nanos / 1000000 * 1000000⟩

/-- The numbers that are written for an instant. -/
def parts (instant : Instant) : TimeParts :=
  let date := instant.date
  let time := instant.timeOfDay
  ⟨date.year, date.month, date.day, time.hour, time.minute, time.second, time.nanos⟩

theorem text_eq (instant : Instant) : instant.text = instant.parts.text := by
  simp only [text, TimeParts.text, List.append_assoc, List.cons_append]
  rfl

theorem text_truncated (instant : Instant) : instant.truncated.text = instant.text := by
  have second : instant.nanos / 1000000 * 1000000 / 1000000000 = instant.nanos / 1000000000 := by
    omega
  have millis : instant.nanos / 1000000 * 1000000 % 1000000000 / 1000000 =
      instant.nanos % 1000000000 / 1000000 := by
    omega
  simp only [text, truncated, timeOfDay, date, second, millis]

/-- The instant that is read where this one is written: a leap second has a name of its own only at
the end of a minute. -/
def asWritten (instant : Instant) : Instant :=
  if instant.second % 60 = 59 then instant else instant.afterLeap

theorem date_asWritten (instant : Instant) : instant.asWritten.date = instant.date := by
  rw [asWritten]
  split
  · rfl
  · rw [afterLeap]
    split
    · have day : (instant.second + 1) / 86400 = instant.second / 86400 := by omega
      rw [date, date, day]
    · rfl

theorem InCalendar.timeOfDay_asWritten {instant : Instant} (inCalendar : instant.InCalendar) :
    instant.asWritten.timeOfDay = instant.timeOfDay := by
  have nanos := inCalendar.nanos
  rw [asWritten]
  split
  · rfl
  · rw [afterLeap]
    split
    · simp only [timeOfDay, TimeOfDay.mk.injEq]
      omega
    · rfl

theorem InCalendar.text_asWritten {instant : Instant} (inCalendar : instant.InCalendar) :
    instant.asWritten.text = instant.text := by
  rw [Instant.text, Instant.text, date_asWritten, inCalendar.timeOfDay_asWritten]

theorem InCalendar.isValid_asWritten {instant : Instant} (inCalendar : instant.InCalendar) :
    instant.asWritten.IsValid where
  inRange := by
    rw [date_asWritten]
    exact inCalendar.inRange
  nanos := by
    rw [asWritten]
    split
    · rename_i ends
      exact Or.inr ⟨ends, inCalendar.nanos⟩
    · exact Or.inl (nanos_afterLeap_lt inCalendar.nanos)

theorem IsValid.fits {instant : Instant} (valid : instant.IsValid) : instant.parts.Fits := by
  have date : instant.date.IsValid := Date.isValid_ofDays _
  have nanos := valid.nanos
  constructor
  · exact Nat.lt_of_le_of_lt date.2.1 (Nat.lt_add_of_pos_right (by decide : 0 < 88))
  · have := (monthLength_bounds instant.date.year date.1 date.2.1).2
    have := date.2.2.2
    simp only [parts]
    omega
  · simp only [parts, timeOfDay]
    omega
  · simp only [parts, timeOfDay]
    omega
  · simp only [parts, timeOfDay]
    omega
  · exact Nat.mod_lt _ (by decide)

/-- The sixtieth second stands for the time beyond a whole second within a leap second. -/
theorem ofDateTime_clock {date : Date} {second : Int} (days : date.toDays = second / 86400)
    {nanos : Nat} (valid : nanos < 1000000000 ∨ (second % 60 = 59 ∧ nanos < 2000000000)) :
    ofDateTime date ⟨(second % 86400).toNat / 3600, (second % 86400).toNat / 60 % 60,
        (second % 86400).toNat % 60 + nanos / 1000000000,
        nanos % 1000000000 / 1000000 * 1000000⟩ =
      ⟨second, nanos / 1000000 * 1000000⟩ := by
  rw [ofDateTime, Instant.mk.injEq, days]
  dsimp only
  split
  · omega
  · omega

/-- The numbers that are written for an instant are those of the instant. -/
theorem IsValid.instant?_parts {instant : Instant} (valid : instant.IsValid) :
    TimeParts.instant? { instant.parts with nanos := instant.parts.nanos / 1000000 * 1000000 } =
      some instant.truncated := by
  have date : instant.date.IsValid := Date.isValid_ofDays _
  have days : instant.date.toDays = instant.second / 86400 := Date.toDays_ofDays _
  have nanos := valid.nanos
  have time : TimeOfDay.IsValid ⟨instant.timeOfDay.hour, instant.timeOfDay.minute,
      instant.timeOfDay.second, instant.timeOfDay.nanos / 1000000 * 1000000⟩ := by
    simp only [TimeOfDay.IsValid, timeOfDay]
    omega
  rw [TimeParts.instant?, if_pos ⟨date, valid.inRange, time⟩]
  exact congrArg some (ofDateTime_clock days nanos)

/-! ## Reading what is written -/

/-- A written instant begins with a digit or a sign and ends with a digit. -/
theorem isTrimmed_text (instant : Instant) : instant.text.IsTrimmed := by
  constructor
  · intro c first
    have kept : Text.trimStart instant.text = instant.text := by
      rw [text_eq]
      exact TimeParts.trimStart_yearText _ _
    rw [← kept] at first
    exact Text.head?_dropWhile_isBlank c first
  · intro c last
    rcases Text.exists_of_padded 3 (instant.timeOfDay.nanos / 1000000) with ⟨digit, rest, shape, _⟩
    have ended : instant.text.getLast? = (digit :: rest).getLast? := by
      rw [← shape, text, List.getLast?_append_cons, List.getLast?_cons, ← Text.padded, shape]
      rfl
    rw [ended, ← shape] at last
    exact isBlank_of_isDigit (Text.isDigit_of_mem_padded (List.mem_of_getLast? last))

theorem IsValid.absoluteTime?_text {instant : Instant} (valid : instant.IsValid) :
    absoluteTime? instant.text = some instant.truncated := by
  rw [text_eq, absoluteTime?, internetTime?_text valid.fits, Option.none_or, lenientTime?,
    List.findSome?_cons, TimeParts.ofFormat?_text valid.fits, Option.bind_some,
    valid.instant?_parts]

theorem IsValid.ofInput?_text {instant : Instant} (valid : instant.IsValid) (now : Instant) :
    ofInput? instant.text now = some instant.truncated := by
  have read := valid.absoluteTime?_text
  rw [ofInput?, Text.trim_of_isTrimmed instant.isTrimmed_text, read, Option.some_or]
  split
  · rename_i empty
    rw [List.isEmpty_iff.1 empty] at read
    cases read
  · rfl

/-! ## Conversions -/

/-- A text that stands for an instant is converted once and for all. -/
theorem convertInput_convertInput {text : Text} {now : Instant} (inCalendar : now.InCalendar)
    {instant : Instant} (read : ofInput? text now = some instant) (other : Instant) :
    convertInput (convertInput text now) other = convertInput text now := by
  have found := inCalendar_of_ofInput? inCalendar read
  have converted : convertInput text now = instant.asWritten.text := by
    rw [convertInput, read, found.text_asWritten]
  have again := found.isValid_asWritten.ofInput?_text other
  rw [converted, convertInput, again]
  exact text_truncated instant.asWritten

/-- The timestamp of an instant stands for this instant, down to the millisecond.  So a converted
text stays as it is when it is converted again, and even at another time if it has stood for an
instant. -/
theorem convertInput_stable :
    (∀ instant : Instant, instant.IsValid → ∀ now,
      ofInput? instant.text now = some instant.truncated) ∧
    (∀ text now, now.InCalendar →
      convertInput (convertInput text now) now = convertInput text now) ∧
    ∀ text now other, now.InCalendar → ofInput? text now ≠ none →
      convertInput (convertInput text now) other = convertInput text now := by
  refine ⟨?_, ?_, ?_⟩
  · intro instant valid now
    exact valid.ofInput?_text now
  · intro text now inCalendar
    cases read : ofInput? text now with
    | none =>
      have kept : convertInput text now = text := by rw [convertInput, read]
      rw [kept, kept]
    | some instant => exact convertInput_convertInput inCalendar read now
  · intro text now other inCalendar found
    rcases Option.ne_none_iff_exists'.1 found with ⟨instant, read⟩
    exact convertInput_convertInput inCalendar read other

/-- A leap second before the beginning of the year zero, and the day before a moment within a leap
second at the end of 2016, down to the millisecond. -/
theorem convertInput_stable_of_leap_second :
    Instant.text ⟨-62167219201, 1987654321⟩ = "-0001-12-31 23:59:60.987".toList ∧
      ofInput? "-0001-12-31 23:59:60.987".toList ⟨0, 0⟩ = some ⟨-62167219201, 1987000000⟩ ∧
      InCalendar ⟨1483228799, 1250999999⟩ ∧
      convertInput "1 day ago".toList ⟨1483228799, 1250999999⟩ =
        "2016-12-31 00:00:00.250".toList ∧
      convertInput (convertInput "1 day ago".toList ⟨1483228799, 1250999999⟩) ⟨86400, 0⟩ =
        convertInput "1 day ago".toList ⟨1483228799, 1250999999⟩ := by
  have valid : Instant.IsValid ⟨-62167219201, 1987654321⟩ :=
    ⟨by decide +kernel, Or.inr (by decide)⟩
  have text : Instant.text ⟨-62167219201, 1987654321⟩ = "-0001-12-31 23:59:60.987".toList := by
    decide +kernel
  have read := convertInput_stable.1 _ valid ⟨0, 0⟩
  rw [text] at read
  have leap : InCalendar ⟨1483228799, 1250999999⟩ := ⟨by decide +kernel, by decide⟩
  exact ⟨text, read, leap, by decide +kernel,
    convertInput_stable.2.2 _ _ ⟨86400, 0⟩ leap (by decide +kernel)⟩

end Instant

end AlarmQuery
