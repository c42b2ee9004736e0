import AlarmQuery.Decimal.Floating

/-!
# Shortest decimals

A number is written with the fewest decimal digits that are read back as the same number.  Of two
decimals that short the nearer one is taken, and the larger one from halfway.
-/

namespace AlarmQuery

/-- A positive decimal: its digits, without a zero at either end, stand behind a point that is
then moved `point` places to the right. -/
structure Digits where
  digits : Text
  point : Int
deriving DecidableEq, Repr

namespace Digits

/-- The digits of `value` times ten to the power `exponent`. -/
def ofNat (value : Nat) (exponent : Int) : Digits :=
  let digits := Text.ofNat value
  ⟨(digits.reverse.dropWhile (· = '0')).reverse, digits.length + exponent⟩

/-- Without an exponent, and without a point unless digits follow it. -/
def positional (decimal : Digits) : Text :=
  if decimal.point ≤ 0 then
    '0' :: '.' :: List.replicate (-decimal.point).toNat '0' ++ decimal.digits
  else
    let whole := decimal.point.toNat
    if decimal.digits.length ≤ whole then
      decimal.digits ++ List.replicate (whole - decimal.digits.length) '0'
    else decimal.digits.take whole ++ '.' :: decimal.digits.drop whole

/-- Always with a point or an exponent: positional while the point stands at most sixteen places
to the right and fewer than five to the left of the digits. -/
def scientific (decimal : Digits) : Text :=
  let count : Int := decimal.digits.length
  if count ≤ decimal.point ∧ decimal.point ≤ 16 then decimal.positional ++ ['.', '0']
  else if -5 < decimal.point ∧ decimal.point ≤ 16 then decimal.positional
  else
    let mantissa := match decimal.digits with
      | first :: second :: others => first :: '.' :: second :: others
      | digits => digits
    mantissa ++ 'e' :: Text.ofInt (decimal.point - 1)

end Digits

namespace BinaryFormat

/-- The decimals that round to a given number of steps, as an interval in quarters of a step, and
whether its ends belong to it. -/
structure Interval where
  lower : Nat
  upper : Nat
  closed : Bool

/-- The interval of a positive number.  Below a power of two the next number is only half as far
away. -/
def interval (format : BinaryFormat) (steps : Nat) : Interval :=
  let gap := format.gap steps
  let below := if steps = Nat.pow 2 steps.log2 ∧ gap ≠ 1 then gap else 2 * gap
  ⟨4 * steps - below, 4 * steps + 2 * gap, steps / gap % 2 == 0⟩

/-- The decimal with `count` digits that is nearest to a positive number, if it is read back as
the same number. -/
def nearestWith? (format : BinaryFormat) (steps : Nat) (count : Nat) : Option Digits :=
  let wholeDigits :=
    (Text.ofNat (steps * Nat.pow 10 format.scale / Nat.pow 2 format.scale)).length
  let exponent : Int := (wholeDigits : Int) - format.scale - count
  -- A grid point `n` stands for `n * up / down`, measured in quarters of a step.
  let up := Nat.pow 10 exponent.toNat * 4 * Nat.pow 2 format.scale
  let down := Nat.pow 10 (-exponent).toNat
  let interval := format.interval steps
  let inside (point : Nat) : Bool :=
    if interval.closed then
      interval.lower * down ≤ point * up && point * up ≤ interval.upper * down
    else interval.lower * down < point * up && point * up < interval.upper * down
  let floor := 4 * steps * down / up
  let floorNearer := 2 * (4 * steps * down - floor * up) < up
  if inside floor && (floorNearer || !inside (floor + 1)) then some (.ofNat floor exponent)
  else if inside (floor + 1) then some (.ofNat (floor + 1) exponent)
  else none

/-- The shortest decimal of a positive number. -/
def shortest (format : BinaryFormat) (steps : Nat) : Digits :=
  ((List.range' 1 17).findSome? (format.nearestWith? steps)).getD ⟨[], 0⟩

end BinaryFormat

namespace Floating

/-- The number with `digits` as the text of its positive magnitude and `zero` as that of zero. -/
def textWith (format : BinaryFormat) (digits : Digits → Text) (zero : Text) : Floating → Text
  | .finite negative steps =>
    let magnitude := if steps = 0 then zero else digits (format.shortest steps)
    if negative then '-' :: magnitude else magnitude
  | .infinite false => "inf".toList
  | .infinite true => "-inf".toList
  | .notNumber => "NaN".toList

end Floating

end AlarmQuery
