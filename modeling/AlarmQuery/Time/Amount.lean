import AlarmQuery.Text.Blank
import AlarmQuery.Time.Instant

/-!
# Amounts of time

An amount of time is written as numbers with units, in any order.  Months are counted apart from
the rest, since they are not equally long.
-/

namespace AlarmQuery

/-- A unit of time. -/
inductive TimeUnit
  | millisecond
  | second
  | minute
  | hour
  | day
  | week
  | month
  | year
deriving DecidableEq, Repr

namespace TimeUnit

/-- All the units. -/
def all : List TimeUnit := [.millisecond, .second, .minute, .hour, .day, .week, .month, .year]

/-- The names of a unit. -/
def names : TimeUnit → List Text
  | .millisecond => ["ms", "milli", "millis", "millisecond", "milliseconds"].map String.toList
  | .second => ["s", "sec", "secs", "second", "seconds"].map String.toList
  | .minute => ["m", "min", "mins", "minute", "minutes"].map String.toList
  | .hour => ["h", "hour", "hours"].map String.toList
  | .day => ["d", "day", "days"].map String.toList
  | .week => ["w", "week", "weeks"].map String.toList
  | .month => ["mo", "month", "months"].map String.toList
  | .year => ["y", "year", "years"].map String.toList

/-- The unit with a given name. -/
def ofName? (text : Text) : Option TimeUnit := all.find? fun unit => unit.names.contains text

end TimeUnit

/-- An amount of time. -/
structure TimeAmount where
  months : Nat := 0
  millis : Nat := 0
deriving DecidableEq, Repr

namespace TimeAmount

/-! ## Limits -/

/-- The largest number that can be written. -/
def maxCount : Nat := Nat.pow 2 63 - 1

/-- The largest number of months. -/
def maxMonths : Nat := Nat.pow 2 32 - 1

/-- The largest number of milliseconds. -/
def maxMillis : Nat := Nat.pow 2 63 - 1

/-- A number that does not go beyond a limit. -/
def atMost? (limit number : Nat) : Option Nat := if number ≤ limit then some number else none

/-! ## Sums -/

/-- Adds months. -/
def addMonths? (amount : TimeAmount) (months : Nat) : Option TimeAmount :=
  (atMost? maxMonths (amount.months + months)).map fun months => { amount with months }

/-- Adds milliseconds. -/
def addMillis? (amount : TimeAmount) (millis : Nat) : Option TimeAmount :=
  (atMost? maxMillis (amount.millis + millis)).map fun millis => { amount with millis }

/-- Adds seconds, which by themselves may not be more than the milliseconds can express. -/
def addSeconds? (amount : TimeAmount) (seconds : Nat) : Option TimeAmount := do
  let seconds ← atMost? (maxMillis / 1000) seconds
  amount.addMillis? (seconds * 1000)

/-- Adds so many of a unit.  What they come to in seconds or in months may not become too large on
the way. -/
def addUnit? (amount : TimeAmount) (count : Nat) : TimeUnit → Option TimeAmount
  | .millisecond => (atMost? maxMillis count).bind amount.addMillis?
  | .second => amount.addSeconds? count
  | .minute => (atMost? maxCount (count * 60)).bind amount.addSeconds?
  | .hour => (atMost? maxCount (count * 3600)).bind amount.addSeconds?
  | .day => (atMost? maxCount (count * 86400)).bind amount.addSeconds?
  | .week => (atMost? maxCount (count * 604800)).bind amount.addSeconds?
  | .month => (atMost? maxMonths count).bind amount.addMonths?
  | .year => do
    let years ← atMost? maxMonths count
    let months ← atMost? maxMonths (years * 12)
    amount.addMonths? months

/-- Adds so many of the unit with a given name, if there is such a unit. -/
def addNamed? (amount : TimeAmount) (count : Nat) (name : Text) : Option TimeAmount :=
  (TimeUnit.ofName? name).bind (amount.addUnit? count)

/-! ## Words -/

/-- The number that a word continues with: the one it begins with, or else the one that the word
before it has left. -/
def count? (pending : Option Nat) (digits : Text) : Option Nat :=
  match digits.isEmpty, pending with
  | false, none => atMost? maxCount (Text.digitsValue digits)
  | true, some count => some count
  | _, _ => none

/-- Adds what words stand for.  A number and its unit are one word or two: a word that is only a
number leaves it `pending` for the next one.  In the end none may be left, and some unit must have
been `matched`. -/
def addWords? (amount : TimeAmount) (pending : Option Nat) (matched : Bool) :
    List Text → Option TimeAmount
  | [] => if pending.isSome ∨ matched = false then none else some amount
  | word :: others =>
    let digits := word.takeWhile Char.isDigit
    let name := word.dropWhile Char.isDigit
    (count? pending digits).bind fun count =>
      if name.isEmpty then amount.addWords? (some count) matched others
      else (amount.addNamed? count name).bind fun amount => amount.addWords? none true others

/-! ## Texts -/

/-- The small letter of a capital one, for those letters that a unit or `ago` may have.  The sign
for kelvin is a capital `k`. -/
def lowerChar (c : Char) : Char := if c = '\u212A' then 'k' else c.toLower

/-- A text in small letters without a final `ago`. -/
def cutAgo (lower : Text) : Text :=
  let cut := lower.length - 3
  Text.trim (if lower.drop cut = "ago".toList then lower.take cut else lower)

/-- A text without a final `ago`, in small letters. -/
def withoutAgo (text : Text) : Text := cutAgo (text.map lowerChar)

/-- Reads an amount of time in small letters. -/
def ofBody? (body : Text) : Option TimeAmount :=
  if body = "now".toList then some {} else addWords? {} none false (Text.words body)

/-- Reads an amount of time, which may be said to be past. -/
def ofText? (text : Text) : Option TimeAmount := ofBody? (withoutAgo text)

/-! ## Going back -/

/-- The instant that lies so long before `now`, if the calendar reaches back so far.  The months
are taken off first. -/
def before? (amount : TimeAmount) (now : Instant) : Option Instant :=
  let start := now.subMonths amount.months
  let earlier := start.subMillis amount.millis
  if start.date.InRange ∧ earlier.date.InRange then some earlier else none

end TimeAmount

end AlarmQuery
