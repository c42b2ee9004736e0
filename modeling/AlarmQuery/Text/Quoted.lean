import AlarmQuery.Text.Blank
import AlarmQuery.Text.Marks

/-!
# Quoted texts in messages

A message quotes a text so that each character of it can be told: characters that cannot be seen,
or that combine with the one before them, are given by their codes.
-/

namespace AlarmQuery

namespace Text

/-- Whether a message shows a character by its code: control characters, marks, blanks other than
a space, and the soft hyphen. -/
def isHidden (c : Char) : Bool :=
  c.toNat < 0x20 || (0x7F ≤ c.toNat && c.toNat < 0xA0) || c.toNat == 0xAD || isMark c ||
    (isBlank c && c != ' ')

/-- A character between quotes. -/
def quotedChar (c : Char) : Text :=
  if c = '"' then ['\\', '"']
  else if c = '\\' then ['\\', '\\']
  else if c = '\n' then ['\\', 'n']
  else if c = '\r' then ['\\', 'r']
  else if c = '\t' then ['\\', 't']
  else if c = '\x00' then ['\\', '0']
  else if isHidden c then ['\\', 'u', '{'] ++ Nat.toDigits 16 c.toNat ++ ['}']
  else [c]

/-- A text between quotes. -/
def quoted (text : Text) : Text := '"' :: text.flatMap quotedChar ++ ['"']

end Text

end AlarmQuery
