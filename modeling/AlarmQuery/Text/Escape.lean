import AlarmQuery.Text.Basic

/-!
# Escaped texts

A backslash takes away the meaning that the next character has in a query, and `\u` with four
hexadecimal digits stands for the character with that code.  `escape` writes a text so that a
query can hold it as a word, `unescape` reads what a query holds.
-/

namespace AlarmQuery

/-- The characters that mean something in a query, in the order in which they are listed to
users. -/
def specials : List Char :=
  ['\\', '+', '-', '!', '(', ')', ':', '^', '[', ']', '"', '{', '}', '~', '|', '&', '/', ' ']

/-- The characters of a word that stand for other characters. -/
def wildcards : List Char := ['*', '?']

/-- The words that a query reads as operators when they stand alone. -/
def operatorWords : List Text := [['A', 'N', 'D'], ['O', 'R'], ['N', 'O', 'T']]

/-- Whether a character stands for other characters unless it is escaped. -/
def isWildcard (c : Char) : Bool := wildcards.contains c

/-- What is wrong with an escape. -/
inductive EscapeFault
  /-- Nothing follows the backslash. -/
  | trailing
  /-- Fewer than four hexadecimal digits follow `\u`. -/
  | truncated
  /-- The code belongs to no character. -/
  | notCharacter (code : Nat)
deriving DecidableEq, Repr

/-- The words in which the fault is reported. -/
def EscapeFault.message : EscapeFault → Text
  | .trailing => "Term can not end with escape character.".toList
  | .truncated => "Truncated unicode escape sequence.".toList
  | .notCharacter code =>
    "Invalid unicode escape \\u".toList ++ Text.padStart 4 '0' (Nat.toDigits 16 code)

/-- A character, behind a backslash when `marked` says so. -/
def escapeChar (marked : Char → Bool) (c : Char) : Text :=
  if marked c then ['\\', c] else [c]

/-- Escapes the special characters, those of `extras` and, when `literal`, the wildcards.  An
operator word gets a backslash in front, since as a whole it would be read as an operator. -/
def escapeWith (extras : List Char) (literal : Bool) (text : Text) : Text :=
  let body := text.flatMap (escapeChar fun c =>
    specials.contains c || (literal && isWildcard c) || extras.contains c)
  if operatorWords.contains text then '\\' :: body else body

/-- Escapes the special characters and, when `literal`, the wildcards. -/
def escape (literal : Bool) (text : Text) : Text := escapeWith [] literal text

/-- The number that four hexadecimal digits stand for. -/
def hexCode? (first second third fourth : Char) : Option Nat := do
  let a ← Text.hexDigit? first
  let b ← Text.hexDigit? second
  let c ← Text.hexDigit? third
  let d ← Text.hexDigit? fourth
  return ((a * 16 + b) * 16 + c) * 16 + d

/-- The character with a given code, if there is one. -/
def charOfCode? (code : Nat) : Option Char :=
  if code.isValidChar then some (Char.ofNat code) else none

/-- Reads the escapes of a text that stands at `position` in a query.  A fault is placed at the
backslash of the escape that has it. -/
def unescape (position : Nat) : Text → Except (Placed EscapeFault) Text
  | [] => .ok []
  | ['\\'] => .error ⟨.trailing, position⟩
  | '\\' :: 'u' :: first :: second :: third :: fourth :: rest =>
    match hexCode? first second third fourth with
    | none => .error ⟨.truncated, position⟩
    | some code =>
      match charOfCode? code with
      | none => .error ⟨.notCharacter code, position⟩
      | some c => (unescape (position + 6) rest).map (c :: ·)
  | '\\' :: 'u' :: _ => .error ⟨.truncated, position⟩
  | '\\' :: c :: rest => (unescape (position + 2) rest).map (c :: ·)
  | c :: rest => (unescape (position + 1) rest).map (c :: ·)

end AlarmQuery
