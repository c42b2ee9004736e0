import AlarmQuery.Decimal.Shortest

/-!
# Boosts

The weight of a part of a query is a number of the 32-bit format.  It is written without an
exponent and without a fraction that is zero.
-/

namespace AlarmQuery

/-- The weight of a part of a query. -/
abbrev Boost := Floating

namespace Boost

/-- The boost that a number of the form `digits[.digits]` asks for.  Too large a number is
infinite, too small a number is zero. -/
def ofDecimal (number : Text) : Boost := Floating.ofDecimal .single number

/-- Reads a boost in any of the usual spellings of a number. -/
def ofText? (text : Text) : Option Boost := Floating.ofText? .single text

/-- The shortest text of a boost. -/
def text (boost : Boost) : Text := boost.textWith .single Digits.positional ['0']

end Boost

end AlarmQuery
