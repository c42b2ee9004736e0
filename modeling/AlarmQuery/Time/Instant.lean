import AlarmQuery.Text.Basic
import AlarmQuery.Time.Calendar

/-!
# Instants

An instant is a second and the nanoseconds that have passed of it.  Within a leap second the
second is the one before it, and the nanoseconds go on counting beyond a whole second.
-/

namespace AlarmQuery

/-- An instant of universal time. -/
structure Instant where
  /-- The seconds since the beginning of 1970, leap seconds left out. -/
  second : Int
  /-- The nanoseconds of the second, from one thousand million on within a leap second. -/
  nanos : Nat
deriving DecidableEq, Repr

/-- The time of a day. -/
structure TimeOfDay where
  hour : Nat
  minute : Nat
  /-- Sixty within a leap second. -/
  second : Nat
  nanos : Nat
deriving DecidableEq, Repr

namespace TimeOfDay

/-- Whether there is such a time.  Any minute may have a leap second. -/
def IsValid (time : TimeOfDay) : Prop :=
  time.hour < 24 ∧ time.minute < 60 ∧ time.second ≤ 60

instance (time : TimeOfDay) : Decidable time.IsValid := inferInstanceAs (Decidable (_ ∧ _ ∧ _))

end TimeOfDay

namespace Instant

/-- A number of whole milliseconds since the beginning of 1970. -/
def ofMillis (millis : Int) : Instant :=
  ⟨millis / 1000, (millis % 1000).toNat * 1000000⟩

/-- The instant at a time of a day. -/
def ofDateTime (date : Date) (time : TimeOfDay) : Instant :=
  let leap := if time.second = 60 then 1 else 0
  ⟨date.toDays * 86400 + (time.hour * 3600 + time.minute * 60 + (time.second - leap) : Nat),
    time.nanos + 1000000000 * leap⟩

/-- The day of an instant. -/
def date (instant : Instant) : Date := Date.ofDays (instant.second / 86400)

/-- The time of day of an instant. -/
def timeOfDay (instant : Instant) : TimeOfDay :=
  let second := (instant.second % 86400).toNat
  ⟨second / 3600, second / 60 % 60, second % 60 + instant.nanos / 1000000000,
    instant.nanos % 1000000000⟩

/-- The same time of day so many months earlier, on the same day of the month or on the last one of
a month that is shorter. -/
def subMonths (instant : Instant) (months : Nat) : Instant :=
  { instant with
    second := (instant.date.subMonths months).toDays * 86400 + instant.second % 86400 }

/-- The instant as it is seen from outside of its leap second, which then is the second behind. -/
def afterLeap (instant : Instant) : Instant :=
  if 1000000000 ≤ instant.nanos then ⟨instant.second + 1, instant.nanos - 1000000000⟩ else instant

/-- The instant so many milliseconds earlier.  Less than a second before, a time within a leap
second still belongs to the second that it follows. -/
def subMillis (instant : Instant) (millis : Nat) : Instant :=
  let seconds := millis / 1000
  let nanos := millis % 1000 * 1000000
  if 1000000000 ≤ instant.nanos ∧ seconds = 0 then
    { instant with nanos := instant.nanos - nanos }
  else
    let start := instant.afterLeap
    if start.nanos < nanos then
      ⟨start.second - seconds - 1, start.nanos + 1000000000 - nanos⟩
    else ⟨start.second - seconds, start.nanos - nanos⟩

/-- A year with at least four digits.  Years that four digits cannot tell have a sign. -/
def yearText (year : Int) : Text :=
  if 0 ≤ year ∧ year ≤ 9999 then Text.padStart 4 '0' (Text.ofInt year)
  else (if year < 0 then '-' else '+') :: Text.padStart 4 '0' (Text.ofNat year.natAbs)

/-- A number of at least two digits. -/
def twoDigits (number : Nat) : Text := Text.padStart 2 '0' (Text.ofNat number)

/-- The instant as it is written in the alarm log, down to whole milliseconds. -/
def text (instant : Instant) : Text :=
  let date := instant.date
  let time := instant.timeOfDay
  yearText date.year ++ '-' :: twoDigits date.month ++ '-' :: twoDigits date.day ++
    ' ' :: twoDigits time.hour ++ ':' :: twoDigits time.minute ++ ':' :: twoDigits time.second ++
    '.' :: Text.padStart 3 '0' (Text.ofNat (time.nanos / 1000000))

end Instant

end AlarmQuery
