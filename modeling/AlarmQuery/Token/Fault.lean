import AlarmQuery.Token.Basic

/-!
# Faults of a query

Why a text is not a query.  A fault is a cause, and its wording is in `Fault.message` alone.
-/

namespace AlarmQuery

/-- How deep parentheses may be nested. -/
def maxNesting : Nat := 256

/-- What stands between two delimiters. -/
inductive Enclosed
  | string
  | regexp
  | bound
deriving DecidableEq, Repr

/-- What a message calls a text between two delimiters. -/
def Enclosed.name : Enclosed → Text
  | .string => "quoted string".toList
  | .regexp => "regular expression".toList
  | .bound => "quoted range bound".toList

/-- What would be right in place of an unexpected token. -/
inductive Expectation
  | endOfQuery
  | closeParen
  | operand
deriving DecidableEq, Repr

/-- How a message names what would be right. -/
def Expectation.name : Expectation → Text
  | .endOfQuery => "<EOF>".toList
  | .closeParen => "\")\"".toList
  | .operand => "a term, a quoted string, a range or \"(\"".toList

/-- Why a text is not a query. -/
inductive Fault
  /-- An escape is wrong. -/
  | escape (fault : EscapeFault)
  /-- No token begins with this character. -/
  | unexpectedCharacter (c : Char)
  /-- No number follows a `^`. -/
  | missingNumber
  /-- The closing delimiter is missing. -/
  | unterminated (what : Enclosed)
  /-- The query ends inside a range. -/
  | unterminatedRange
  /-- A bound of a range has no character. -/
  | emptyBound
  /-- Another text stands where `TO` separates the bounds of a range. -/
  | missingTo (found : Text)
  /-- No bracket follows the second bound of a range. -/
  | unclosedRange
  /-- A token, or the end of the query, does not fit what stands before it. -/
  | unexpectedToken (found : Option Token) (expected : Expectation)
  /-- A parenthesis opens inside too many others. -/
  | nestedTooDeeply
deriving DecidableEq, Repr

namespace Fault

/-- The message for something found where something else is expected. -/
def encountered (found expected : Text) : Text :=
  "Encountered \"".toList ++ found ++ "\". Was expecting ".toList ++ expected

/-- The words in which a fault is reported. -/
def message : Fault → Text
  | .escape fault => fault.message
  | .unexpectedCharacter c => "Lexical error: unexpected '".toList ++ [c, '\'']
  | .missingNumber => "Lexical error: expected a number after '^'".toList
  | .unterminated what => "Lexical error: unterminated ".toList ++ what.name
  | .unterminatedRange => "Lexical error: unterminated range".toList
  | .emptyBound => "Lexical error: empty range bound".toList
  | .missingTo found => encountered found "\"TO\"".toList
  | .unclosedRange => "Lexical error: expected ']' or '\x7d' to close range".toList
  | .unexpectedToken found expected =>
    encountered ((found.map Token.text).getD "<EOF>".toList) expected.name
  | .nestedTooDeeply =>
    "Query nested too deeply, at most ".toList ++ Text.ofNat maxNesting ++ " levels".toList

end Fault

/-- A fault of an escape as a fault of the query. -/
def Placed.escapeFault (placed : Placed EscapeFault) : Placed Fault :=
  ⟨.escape placed.value, placed.position⟩

/-- Reads the escapes of a part of a query that begins at `position`. -/
def unescapeAt (position : Nat) (text : Text) : Except (Placed Fault) Text :=
  (unescape position text).mapError Placed.escapeFault

end AlarmQuery
