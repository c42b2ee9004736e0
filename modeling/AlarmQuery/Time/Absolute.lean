import AlarmQuery.Text.Blank
import AlarmQuery.Time.Instant

/-!
# Absolute times

An absolute time is written in the internet format, or as a date with or without a time of day.
The internet format is strict and names an offset.  The others are lenient: numbers may have fewer
digits and blank characters in front, and a year may have a sign and then any number of digits.
-/

namespace AlarmQuery

/-- The numbers of a date and a time of day, as far as they have been read. -/
structure TimeParts where
  year : Int := 0
  month : Nat := 0
  day : Nat := 0
  hour : Nat := 0
  minute : Nat := 0
  second : Nat := 0
  nanos : Nat := 0
deriving DecidableEq, Repr

/-- An element of a format. -/
inductive TimeElement
  | year
  | month
  | day
  | hour
  | minute
  | second
  /-- A point and a fraction of a second, or nothing. -/
  | fraction
  /-- This very character. -/
  | mark (c : Char)
  /-- Any number of blank characters. -/
  | blanks
deriving DecidableEq, Repr

namespace TimeParts

/-- The instant of a date and a time of day, if both exist. -/
def instant? (parts : TimeParts) : Option Instant :=
  let date : Date := ⟨parts.year, parts.month, parts.day⟩
  let time : TimeOfDay := ⟨parts.hour, parts.minute, parts.second, parts.nanos⟩
  if date.IsValid ∧ date.InRange ∧ time.IsValid then some (.ofDateTime date time) else none

end TimeParts

/-- Takes a number of at least `least` and at most `most` digits off the front of a text. -/
def takeNumber? (least most : Nat) (text : Text) : Option (Nat × Text) :=
  let digits := (text.take most).takeWhile Char.isDigit
  if digits.length < least then none
  else some (Text.digitsValue digits, text.drop digits.length)

/-- Takes a fraction of a second off the front of a text, in nanoseconds.  Digits beyond those are
dropped. -/
def takeNanos? (text : Text) : Option (Nat × Text) :=
  let digits := text.takeWhile Char.isDigit
  let counted := digits.take 9
  if digits.isEmpty then none
  else some (Text.digitsValue counted * Nat.pow 10 (9 - counted.length), text.drop digits.length)

/-- Takes a year: a number of at most four digits, or of any length behind a sign. -/
def takeYear? (text : Text) : Option (Int × Text) :=
  match text with
  | '-' :: rest => (takeNumber? 1 rest.length rest).map fun (year, rest) => (-year, rest)
  | '+' :: rest => (takeNumber? 1 rest.length rest).map fun (year, rest) => (year, rest)
  | text => (takeNumber? 1 4 text).map fun (year, rest) => (year, rest)

/-- Takes what an optional fraction of a second stands for. -/
def takeFraction? (text : Text) : Option (Nat × Text) :=
  match text with
  | '.' :: rest => takeNanos? rest
  | text => some (0, text)

/-- Takes this very character. -/
def takeMark? (c : Char) (text : Text) : Option Text :=
  match text with
  | [] => none
  | first :: rest => if first = c then some rest else none

namespace TimeParts

/-- Takes an element off the front of a text and notes its number. -/
def takeElement? (parts : TimeParts) (element : TimeElement) (text : Text) :
    Option (TimeParts × Text) :=
  let number := takeNumber? 1 2 (Text.trimStart text)
  match element with
  | .year => (takeYear? (Text.trimStart text)).map fun (year, rest) => ({ parts with year }, rest)
  | .month => number.map fun (month, rest) => ({ parts with month }, rest)
  | .day => number.map fun (day, rest) => ({ parts with day }, rest)
  | .hour => number.map fun (hour, rest) => ({ parts with hour }, rest)
  | .minute => number.map fun (minute, rest) => ({ parts with minute }, rest)
  | .second => number.map fun (second, rest) => ({ parts with second }, rest)
  | .fraction => (takeFraction? text).map fun (nanos, rest) => ({ parts with nanos }, rest)
  | .mark c => (takeMark? c text).map fun rest => (parts, rest)
  | .blanks => some (parts, Text.trimStart text)

/-- Takes the elements of a format off a text, to its end. -/
def ofFormat? : List TimeElement → TimeParts → Text → Option TimeParts
  | [], parts, [] => some parts
  | [], _, _ :: _ => none
  | element :: others, parts, text =>
    (parts.takeElement? element text).bind fun (parts, rest) => ofFormat? others parts rest

end TimeParts

/-- A date. -/
def dateFormat : List TimeElement := [.year, .mark '-', .month, .mark '-', .day]

/-- A date and a time of day down to minutes. -/
def minuteFormat : List TimeElement :=
  dateFormat ++ [.blanks, .hour, .mark ':', .minute]

/-- A date and a time of day down to seconds or to a fraction of a second. -/
def secondFormat : List TimeElement :=
  minuteFormat ++ [.mark ':', .second, .fraction]

/-- Takes the offset from universal time off the front of a text, in minutes. -/
def takeOffset? (text : Text) : Option (Int × Text) :=
  let hours (sign : Int) (rest : Text) : Option (Int × Text) := do
    let (hour, rest) ← takeNumber? 2 2 rest
    let rest ← takeMark? ':' rest
    let (minute, rest) ← takeNumber? 2 2 rest
    if hour < 24 ∧ minute < 60 then some (sign * (hour * 60 + minute : Nat), rest) else none
  match text with
  | [] => none
  | c :: rest =>
    if c = 'Z' ∨ c = 'z' then some (0, rest)
    else if c = '+' then hours 1 rest
    else if c = '-' ∨ c = '\u2212' then hours (-1) rest
    else none

/-- Reads a time in the internet format, which may have a space for its `T`. -/
def internetTime? (text : Text) : Option Instant := do
  let (year, rest) ← takeNumber? 4 4 text
  let rest ← takeMark? '-' rest
  let (month, rest) ← takeNumber? 2 2 rest
  let rest ← takeMark? '-' rest
  let (day, rest) ← takeNumber? 2 2 rest
  let rest ← match rest with
    | c :: rest => if c = 'T' ∨ c = 't' ∨ c = ' ' then some rest else none
    | [] => none
  let (hour, rest) ← takeNumber? 2 2 rest
  let rest ← takeMark? ':' rest
  let (minute, rest) ← takeNumber? 2 2 rest
  let rest ← takeMark? ':' rest
  let (second, rest) ← takeNumber? 2 2 rest
  let (nanos, rest) ← takeFraction? rest
  let (offset, rest) ← takeOffset? rest
  if !rest.isEmpty then none
  let parts : TimeParts := { year, month, day, hour, minute, second, nanos }
  let instant ← parts.instant?
  return { instant with second := instant.second - 60 * offset }

/-- Reads a time in one of the lenient formats. -/
def lenientTime? (text : Text) : Option Instant :=
  [secondFormat, minuteFormat, dateFormat].findSome? fun format =>
    (TimeParts.ofFormat? format {} text).bind TimeParts.instant?

/-- Reads an absolute time. -/
def absoluteTime? (text : Text) : Option Instant := (internetTime? text).or (lenientTime? text)

end AlarmQuery
