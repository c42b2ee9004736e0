import AlarmQuery.Text.Basic

/-!
# YAML values

A value is a scalar, a sequence or a mapping.  A scalar is a text, and what else it may stand for
is up to its reader, who is told how it was written.
-/

namespace AlarmQuery

/-- How a scalar is written. -/
inductive ScalarStyle
  | plain
  | quoted
  | block
deriving DecidableEq, Repr

/-- A YAML value.  The tag of a collection says nothing about its contents and is left out. -/
inductive Yaml
  | scalar (style : ScalarStyle) (tag : Option Text) (text : Text)
  | sequence (items : List Yaml)
  | mapping (members : List (Yaml × Yaml))

namespace Yaml

/-- The value that stands where none is written. -/
def empty : Yaml := .scalar .plain none []

/-- Whether a character ends a line. -/
def isBreak (c : Char) : Bool :=
  c == '\n' || c == '\r' || c == '\x85' || c == '\u2028' || c == '\u2029'

/-- Whether a character separates words on a line. -/
def isSpace (c : Char) : Bool := c == ' ' || c == '\t'

/-- Whether a text is at its end, or at a space or the end of a line. -/
def atGap (text : Text) : Bool := text.head?.all fun c => isSpace c || isBreak c

/-- Whether a character may stand in a text as it is. -/
def isPrintable (c : Char) : Bool :=
  let code := c.toNat
  code == 0x0A || (0x20 ≤ code && code ≤ 0x7E) || (0xA0 ≤ code && code ≤ 0xD7FF) ||
    (0xE000 ≤ code && code ≤ 0xFFFD && code != 0xFEFF) || 0x10000 ≤ code

/-- The words for truth values, in the three ways in which they may be capitalised. -/
def ofTruthWord? (word : Text) : Option Bool :=
  if ["true".toList, "True".toList, "TRUE".toList].contains word then some true
  else if ["false".toList, "False".toList, "FALSE".toList].contains word then some false
  else none

/-- Whether a plain scalar stands for no value. -/
def isNullWord (word : Text) : Bool :=
  [[], "null".toList, "Null".toList, "NULL".toList, "~".toList].contains word

end Yaml

end AlarmQuery
