import AlarmQuery.Decimal.Shortest
import AlarmQuery.Text.Escape

/-!
# JSON values

A value as far as its text goes: an array or an object whose text breaks off keeps what stands
before the break.  So whatever uses a value finds what is wrong with it from left to right,
whether the text or the value is at fault.
-/

namespace AlarmQuery

/-- A number in a JSON text. -/
inductive JsonNumber
  | integer (value : Int)
  | floating (value : Floating)
deriving DecidableEq, Repr

/-- A JSON value. -/
inductive Json
  | null
  | bool (value : Bool)
  | number (value : JsonNumber)
  | string (text : Text)
  /-- The items of an array.  It is closed unless its text breaks off. -/
  | array (items : List Json) (closed : Bool)
  /-- The members of an object, repeated ones included.  It is closed unless its text breaks
  off. -/
  | object (members : List (Text × Json)) (closed : Bool)
  /-- A number that is too large, or a string with a code that is none of a character. -/
  | meaningless
  /-- Text that is no value. -/
  | malformed

namespace Json

/-- The character that stands behind a backslash for a control character with a short escape. -/
def shortEscape? (c : Char) : Option Char :=
  if c = '"' then some '"'
  else if c = '\\' then some '\\'
  else if c = '\x08' then some 'b'
  else if c = '\x0c' then some 'f'
  else if c = '\n' then some 'n'
  else if c = '\r' then some 'r'
  else if c = '\t' then some 't'
  else none

/-- A character in a string. -/
def charText (c : Char) : Text :=
  match shortEscape? c with
  | some short => ['\\', short]
  | none =>
    if c.toNat < 32 then '\\' :: 'u' :: Text.padStart 4 '0' (Nat.toDigits 16 c.toNat) else [c]

/-- A text between quotes.  Only quotes, backslashes and control characters are escaped. -/
def stringText (text : Text) : Text := '"' :: text.flatMap charText ++ ['"']

/-- A number.  A floating-point number has a point or an exponent. -/
def numberText : JsonNumber → Text
  | .integer value => Text.ofInt value
  | .floating value => value.textWith .double Digits.scientific "0.0".toList

/-- A new line that is indented by so many levels. -/
def newLine (level : Nat) : Text := '\n' :: List.replicate (2 * level) ' '

mutual

/-- A value with each item and each member on a line of its own, at a level of indentation. -/
def prettyAt (level : Nat) : Json → Text
  | .null => "null".toList
  | .bool true => "true".toList
  | .bool false => "false".toList
  | .number value => numberText value
  | .string text => stringText text
  | .array [] _ => "[]".toList
  | .array items _ => '[' :: itemsText (level + 1) items ++ newLine level ++ [']']
  | .object [] _ => ['{', '}']
  | .object members _ => '{' :: membersText (level + 1) members ++ newLine level ++ ['}']
  | .meaningless => []
  | .malformed => []

/-- The items of an array, with a comma between neighbours. -/
def itemsText (level : Nat) : List Json → Text
  | [] => []
  | [item] => newLine level ++ item.prettyAt level
  | item :: others => newLine level ++ item.prettyAt level ++ ',' :: itemsText level others

/-- The members of an object, with a comma between neighbours. -/
def membersText (level : Nat) : List (Text × Json) → Text
  | [] => []
  | [(name, value)] => newLine level ++ stringText name ++ ':' :: ' ' :: value.prettyAt level
  | (name, value) :: others =>
    newLine level ++ stringText name ++ ':' :: ' ' :: value.prettyAt level ++
      ',' :: membersText level others

end

/-- A value in several lines. -/
def pretty (value : Json) : Text := value.prettyAt 0

end Json

end AlarmQuery
