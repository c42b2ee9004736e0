import AlarmQuery.Text.Basic

/-!
# Binary floating-point numbers

A finite number of a binary format is a whole multiple of the format's smallest step, so it is
kept as that multiple, exactly.  A decimal is read by rounding its exact value once, to the
nearest number of the format and to the even neighbour when it lies halfway.
-/

namespace AlarmQuery

/-- A binary floating-point format. -/
structure BinaryFormat where
  /-- How many binary digits a number has. -/
  precision : Nat
  /-- The smallest step is one half to this power. -/
  scale : Nat
  /-- Every finite number has fewer steps than two to this power. -/
  ceiling : Nat
deriving DecidableEq, Repr

namespace BinaryFormat

/-- The 32-bit format. -/
def single : BinaryFormat := ⟨24, 149, 277⟩

/-- The 64-bit format. -/
def double : BinaryFormat := ⟨53, 1074, 2098⟩

/-- The number of steps between neighbours of the size of `steps`. -/
def gap (format : BinaryFormat) (steps : Nat) : Nat :=
  Nat.pow 2 (steps.log2 + 1 - format.precision)

end BinaryFormat

/-- A floating-point number of any format. -/
inductive Floating
  /-- A multiple of the format's smallest step.  Zero has a sign too. -/
  | finite (negative : Bool) (steps : Nat)
  | infinite (negative : Bool)
  | notNumber
deriving DecidableEq, Repr

/-- A quotient rounded to the nearest whole number, and to the even one from halfway. -/
def roundQuotient (numerator denominator : Nat) : Nat :=
  let quotient := numerator / denominator
  let twice := 2 * (numerator % denominator)
  if twice > denominator || (twice == denominator && quotient % 2 == 1) then quotient + 1
  else quotient

namespace Floating

/-- The number of a format that is nearest to a quotient. -/
def ofQuotient (format : BinaryFormat) (negative : Bool) (numerator denominator : Nat) :
    Floating :=
  let scaled := numerator * Nat.pow 2 format.scale
  let gap := format.gap (scaled / denominator)
  let steps := roundQuotient scaled (denominator * gap) * gap
  if steps < Nat.pow 2 format.ceiling then .finite negative steps else .infinite negative

/-- The number of a format that is nearest to `digits` times ten to the power `exponent`.  A
magnitude beyond every format here is settled without computing the power. -/
def ofScientific (format : BinaryFormat) (negative : Bool) (digits : Text) (exponent : Int) :
    Floating :=
  let significant := digits.dropWhile (· = '0')
  let magnitude : Int := significant.length + exponent
  if significant.isEmpty || magnitude < -400 then .finite negative 0
  else if magnitude > 400 then .infinite negative
  else
    let value := Text.digitsValue significant
    match exponent with
    | .ofNat power => ofQuotient format negative (value * Nat.pow 10 power) 1
    | .negSucc power => ofQuotient format negative value (Nat.pow 10 (power + 1))

/-- The number of a format that is nearest to a decimal of the form `digits[.digits]`. -/
def ofDecimal (format : BinaryFormat) (number : Text) : Floating :=
  let whole := number.takeWhile Char.isDigit
  let fraction := (number.drop whole.length).drop 1
  ofScientific format false (whole ++ fraction) (-fraction.length)

/-- The power of ten behind an `e`: digits with an optional sign. -/
def exponent? (text : Text) : Option Int :=
  let unsigned (digits : Text) : Option Nat :=
    if !digits.isEmpty && digits.all Char.isDigit then some (Text.digitsValue digits) else none
  match text with
  | '-' :: digits => (unsigned digits).map fun power => -(power : Int)
  | '+' :: digits => (unsigned digits).map fun power => (power : Int)
  | digits => (unsigned digits).map fun power => (power : Int)

/-- Reads an unsigned decimal: digits with an optional point among or around them and an optional
exponent. -/
def ofUnsigned? (format : BinaryFormat) (negative : Bool) (text : Text) : Option Floating :=
  let whole := text.takeWhile Char.isDigit
  let afterWhole := text.drop whole.length
  let (fraction, afterFraction) :=
    match afterWhole with
    | '.' :: rest => (rest.takeWhile Char.isDigit, rest.dropWhile Char.isDigit)
    | rest => ([], rest)
  let number (exponent : Int) : Option Floating :=
    if whole.isEmpty && fraction.isEmpty then none
    else some (ofScientific format negative (whole ++ fraction) (exponent - fraction.length))
  match afterFraction with
  | [] => number 0
  | c :: rest => if c = 'e' ∨ c = 'E' then (exponent? rest).bind number else none

/-- Reads a number in any of its usual spellings: a decimal, an infinity or `nan`, in letters of
either case and with an optional sign. -/
def ofText? (format : BinaryFormat) (text : Text) : Option Floating :=
  let unsigned (negative : Bool) (rest : Text) : Option Floating :=
    let lower := rest.map Char.toLower
    if lower = "inf".toList ∨ lower = "infinity".toList then some (.infinite negative)
    else if lower = "nan".toList then some .notNumber
    else ofUnsigned? format negative rest
  match text with
  | '-' :: rest => unsigned true rest
  | '+' :: rest => unsigned false rest
  | rest => unsigned false rest

end Floating

end AlarmQuery
