import AlarmQuery.Query.Render
import AlarmQuery.Text.Pattern

/-!
# Tokens

The pieces that a query consists of.  A range is a single token, since its bounds follow rules of
their own.
-/

namespace AlarmQuery

/-- A bound of a range as it is written, without its quotes. -/
structure Bound where
  text : Text
  quoted : Bool
  /-- Where the bound begins, its opening quote included. -/
  position : Nat
deriving DecidableEq, Repr

/-- A piece of a query. -/
inductive Token
  | and
  | or
  | not
  | plus
  | minus
  | openParen
  | closeParen
  | colon
  /-- A word that is a lone `*`. -/
  | star
  /-- An operator character with a space behind it, which is a term. -/
  | bareOperator (operator : Char)
  /-- The number behind `^`. -/
  | boost (number : Text)
  /-- The number behind `~`, or nothing. -/
  | slop (number : Text)
  /-- What stands between two quotes, escapes kept. -/
  | quoted (contents : Text)
  /-- A word without wildcards, escapes kept. -/
  | term (word : Text)
  /-- A word whose only wildcard is a `*` at its end. -/
  | starred (word : Text)
  /-- A word with any other wildcards. -/
  | pattern (word : Text)
  /-- What stands between two slashes, escapes kept. -/
  | regexp (expression : Text)
  | range (lower upper : Bound) (lowerInclusive upperInclusive : Bool)
deriving DecidableEq, Repr

namespace Token

/-- How a message names a token. -/
def text : Token → Text
  | .and => "AND".toList
  | .or => "OR".toList
  | .not => "NOT".toList
  | .plus => ['+']
  | .minus => ['-']
  | .openParen => ['(']
  | .closeParen => [')']
  | .colon => [':']
  | .star => ['*']
  | .bareOperator operator => [operator, ' ']
  | .boost number => '^' :: number
  | .slop number => '~' :: number
  | .quoted contents => '\\' :: '"' :: contents ++ ['\\', '"']
  | .term word => word
  | .starred word => word
  | .pattern word => word
  | .regexp expression => '/' :: expression ++ ['/']
  | .range lower upper lowerInclusive upperInclusive =>
    rangeText lower.text upper.text lowerInclusive upperInclusive

/-- The token that a word is.  A word is an operator only when it is written out without escapes,
otherwise its wildcards decide. -/
def ofWord (word : Text) : Token :=
  if word = ['A', 'N', 'D'] ∨ word = ['&', '&'] then .and
  else if word = ['O', 'R'] ∨ word = ['|', '|'] then .or
  else if word = ['N', 'O', 'T'] then .not
  else if word = ['*'] then .star
  else match wildcardUse (glyphs word) with
    | .none => .term word
    | .finalStar => .starred word
    | .general => .pattern word

end Token

end AlarmQuery
