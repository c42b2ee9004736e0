import AlarmQuery.Time.Absolute
import AlarmQuery.Time.Amount

/-!
# Times as users type them

A user types an absolute time or how long ago it was.  What is neither stays as it is, so that `*`
keeps a range open.
-/

namespace AlarmQuery

namespace Instant

/-- The instant that a text stands for at the time `now`. -/
def ofInput? (text : Text) (now : Instant) : Option Instant :=
  let text := Text.trim text
  if text.isEmpty then none
  else (absoluteTime? text).or ((TimeAmount.ofText? text).bind fun amount => amount.before? now)

/-- The timestamp that a text stands for at the time `now`, or else the text itself. -/
def convertInput (text : Text) (now : Instant) : Text :=
  match ofInput? text now with
  | some instant => instant.text
  | none => text

end Instant

end AlarmQuery
