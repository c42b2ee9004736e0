import AlarmQuery.Decimal.Floating
import AlarmQuery.Yaml.Basic

/-!
# Scalars in YAML

A text is written as it is where it reads as a text and as nothing else.  A text of several lines
is written line by line, a text that could be taken for another value or for punctuation is put
between single quotes, and what neither can hold is put between double quotes, where any character
has an escape.
-/

namespace AlarmQuery

namespace Yaml

/-! ## Texts that read as other values -/

/-- The words that some readers take for truth values or for nothing, in lower case. -/
def reservedWords : List Text :=
  ["true".toList, "false".toList, "yes".toList, "no".toList, "y".toList, "n".toList, "on".toList,
    "off".toList, "null".toList, "nil".toList, "nan".toList, "~".toList]

/-- Whether a text is a whole number in base sixteen, eight or two, with a letter that says so. -/
def isRadixNumber : Text → Bool
  | '0' :: 'x' :: digits => !digits.isEmpty && digits.all fun c => (Text.hexDigit? c).isSome
  | '0' :: 'o' :: digits => !digits.isEmpty && digits.all fun c => '0' ≤ c && c ≤ '7'
  | '0' :: 'b' :: digits => !digits.isEmpty && digits.all fun c => c == '0' || c == '1'
  | _ => false

/-- Whether digits have a needless zero in front, which makes them a text. -/
def hasLeadingZero : Text → Bool
  | '0' :: digits => !digits.isEmpty && digits.all Char.isDigit
  | _ => false

/-- Whether a text without a sign is a finite number. -/
def isUnsignedNumber (text : Text) : Bool :=
  isRadixNumber text ||
    (!hasLeadingZero text &&
      match Floating.ofUnsigned? .double false text with
      | some (.finite ..) => true
      | _ => false)

/-- Whether a text is a number, an infinity or no number. -/
def isNumber (text : Text) : Bool :=
  let infinities := [".inf".toList, ".Inf".toList, ".INF".toList]
  match text with
  | '+' :: unsigned => infinities.contains unsigned || isUnsignedNumber unsigned
  | '-' :: unsigned => infinities.contains unsigned || isUnsignedNumber unsigned
  | unsigned =>
    infinities.contains unsigned ||
      [".nan".toList, ".NaN".toList, ".NAN".toList].contains unsigned ||
      isUnsignedNumber unsigned

/-- Whether a text could be taken for another value.  Any text that begins with a digit could. -/
def isAmbiguous (text : Text) : Bool :=
  text.head?.all Char.isDigit || reservedWords.contains (text.map Char.toLower) || isNumber text

/-! ## Texts that read as punctuation -/

/-- The characters that mean something at the beginning of a value. -/
def indicators : List Char :=
  ['#', ',', '[', ']', '{', '}', '&', '*', '!', '|', '>', '\'', '"', '%', '@', '\x60']

/-- Whether a value that begins so reads as punctuation. -/
def beginsWithIndicator : Text → Bool
  | [] => false
  | c :: rest =>
    indicators.contains c || ((c == '-' || c == '?' || c == ':') && atGap rest) ||
      (c :: rest).take 3 == "---".toList || (c :: rest).take 3 == "...".toList

/-- Whether a colon of a text reads as the end of a key. -/
def holdsKeyEnd : Text → Bool
  | [] => false
  | c :: rest => (c == ':' && atGap rest) || holdsKeyEnd rest

/-- Whether a number sign of a text reads as the beginning of a comment. -/
def holdsComment : Text → Bool
  | [] => false
  | c :: rest => ((isSpace c || isBreak c) && rest.head? == some '#') || holdsComment rest

/-- Whether two neighbours in a text have one and the other property. -/
def holdsPair (first second : Char → Bool) : Text → Bool
  | [] => false
  | c :: rest => (first c && rest.head?.any second) || holdsPair first second rest

/-- Whether a character is the space character. -/
def isSpaceChar (c : Char) : Bool := c == ' '

/-- Whether a text can be written as it is. -/
def allowsPlain (text : Text) : Bool :=
  text.all isPrintable && !text.any isBreak && !text.head?.any isSpaceChar &&
    !text.getLast?.any isSpaceChar && !beginsWithIndicator text && !holdsKeyEnd text &&
    !holdsComment text

/-- Whether a text can be written between single quotes. -/
def allowsQuotes (text : Text) : Bool :=
  text.all isPrintable && !holdsPair isSpaceChar isBreak text && !holdsPair isBreak isSpaceChar text

/-- Whether a text can be written line by line. -/
def allowsLines (text : Text) : Bool :=
  text.all isPrintable && !holdsPair isSpaceChar isBreak text && !text.getLast?.any isSpaceChar

/-! ## Writing -/

/-- The text of each line behind as many spaces as `indent` says.  Empty lines stay empty. -/
def indented (indent : Nat) (atStart : Bool) : Text → Text
  | [] => []
  | c :: rest =>
    if isBreak c then c :: indented indent true rest
    else (if atStart then List.replicate indent ' ' else []) ++ c :: indented indent false rest

/-- What stands behind the bar of a text that is written line by line: a digit when the text does
not begin with its own indentation, and a sign that tells how it ends. -/
def linesHeading (text : Text) : Text :=
  let beginning := if text.head?.any fun c => isSpaceChar c || isBreak c then ['2'] else []
  let ending :=
    match text.reverse with
    | last :: before =>
      if !isBreak last then ['-'] else if before.head?.all isBreak then ['+'] else []
    | [] => ['-']
  beginning ++ ending

/-- A text line by line, up to the end of its last line. -/
def linesText (indent : Nat) (text : Text) : Text :=
  '|' :: linesHeading text ++ '\n' :: indented indent true text ++
    if text.getLast?.any isBreak then [] else ['\n']

/-- A text between single quotes. -/
def singleQuoted (indent : Nat) (text : Text) : Text :=
  let marked := text.flatMap fun c => if c = '\'' then ['\'', '\''] else [c]
  let margin := if text.getLast?.any isBreak then List.replicate indent ' ' else []
  '\'' :: indented indent false marked ++ margin ++ ['\'']

/-- The letter that stands behind a backslash for a character, if it has one. -/
def escapeLetter? (c : Char) : Option Char :=
  if c = '\x00' then some '0'
  else if c = '\x07' then some 'a'
  else if c = '\x08' then some 'b'
  else if c = '\t' then some 't'
  else if c = '\n' then some 'n'
  else if c = '\x0b' then some 'v'
  else if c = '\x0c' then some 'f'
  else if c = '\r' then some 'r'
  else if c = '\x1b' then some 'e'
  else if c = '"' then some '"'
  else if c = '\\' then some '\\'
  else if c = '\x85' then some 'N'
  else if c = '\u2028' then some 'L'
  else if c = '\u2029' then some 'P'
  else none

/-- The code of a character behind a letter that tells how many digits it has. -/
def codeEscape (c : Char) : Text :=
  let digits := (Nat.toDigits 16 c.toNat).map Char.toUpper
  let padded (letter : Char) (width : Nat) := letter :: Text.padStart width '0' digits
  if c.toNat ≤ 0xFF then padded 'x' 2
  else if c.toNat ≤ 0xFFFF then padded 'u' 4
  else padded 'U' 8

/-- A character between double quotes. -/
def doubleQuotedChar (c : Char) : Text :=
  match escapeLetter? c with
  | some letter => ['\\', letter]
  | none => if isPrintable c then [c] else '\\' :: codeEscape c

/-- A text between double quotes. -/
def doubleQuoted (text : Text) : Text := '"' :: text.flatMap doubleQuotedChar ++ ['"']

/-- A text as a scalar, and the end of its line.  Further lines are indented. -/
def scalarLine (indent : Nat) (text : Text) : Text :=
  if text.contains '\n' then
    if allowsLines text then linesText indent text else doubleQuoted text ++ ['\n']
  else if !isAmbiguous text && allowsPlain text then text ++ ['\n']
  else if allowsQuotes text then singleQuoted indent text ++ ['\n']
  else doubleQuoted text ++ ['\n']

end Yaml

end AlarmQuery
