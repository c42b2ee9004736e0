/-!
# Texts and places in them

Everything this library reads or writes is a finite sequence of characters.
A place in a text counts the characters before it, never the bytes that encode them.
-/

namespace AlarmQuery

/-- A text is the list of its characters. -/
abbrev Text := List Char

/-- A value together with the number of characters that stand before it in a text. -/
structure Placed (α : Type) where
  value : α
  position : Nat
deriving DecidableEq, Repr

namespace Text

/-- The texts one after the other, with `separator` between neighbours. -/
def join (separator : Text) : List Text → Text
  | [] => []
  | [text] => text
  | text :: others => text ++ separator ++ join separator others

@[simp]
theorem join_singleton (separator text : Text) : join separator [text] = text := rfl

@[simp]
theorem join_cons_cons (separator first second : Text) (others : List Text) :
    join separator (first :: second :: others) =
      first ++ separator ++ join separator (second :: others) := rfl

/-- The decimal digits of a number, without leading zeros. -/
def ofNat (number : Nat) : Text := Nat.toDigits 10 number

/-- The decimal digits of a number behind a minus sign when it is negative. -/
def ofInt : Int → Text
  | .ofNat number => ofNat number
  | .negSucc number => '-' :: ofNat (number + 1)

/-- A text behind as many copies of `filler` as it needs to be `width` characters long. -/
def padStart (width : Nat) (filler : Char) (text : Text) : Text :=
  List.replicate (width - text.length) filler ++ text

/-- The value of a decimal digit. -/
def digit? (c : Char) : Option Nat :=
  if c.isDigit then some (c.toNat - '0'.toNat) else none

/-- The value of a hexadecimal digit of either case. -/
def hexDigit? (c : Char) : Option Nat :=
  if c.isDigit then some (c.toNat - '0'.toNat)
  else if 'a' ≤ c ∧ c ≤ 'f' then some (c.toNat - 'a'.toNat + 10)
  else if 'A' ≤ c ∧ c ≤ 'F' then some (c.toNat - 'A'.toNat + 10)
  else none

/-- The number that a run of decimal digits stands for. -/
def digitsValue (digits : Text) : Nat :=
  digits.foldl (fun value c => 10 * value + (c.toNat - '0'.toNat)) 0

/-- The text without `beginning`, when it starts with it. -/
def dropBeginning? : (beginning text : Text) → Option Text
  | [], text => some text
  | _ :: _, [] => none
  | expected :: beginning, c :: text =>
    if c = expected then dropBeginning? beginning text else none

end Text

end AlarmQuery
