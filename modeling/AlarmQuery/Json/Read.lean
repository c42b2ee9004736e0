import AlarmQuery.Json.Basic

/-!
# Reading JSON

A text is read from the left, and what is read before the text goes wrong is kept.  Behind a value
less text remains than before it, which is why reading comes to an end.
-/

namespace AlarmQuery

namespace Json

/-- The characters that may stand between the parts of a JSON text. -/
def isSpace (c : Char) : Bool := c == ' ' || c == '\t' || c == '\n' || c == '\r'

/-- The text from its first character that is no space. -/
def skipSpaces (text : Text) : Text := text.dropWhile isSpace

theorem length_skipSpaces (text : Text) : (skipSpaces text).length ≤ text.length :=
  (List.dropWhile_suffix _).length_le

/-- The character that a short escape stands for. -/
def ofShortEscape? (c : Char) : Option Char :=
  if c = '"' then some '"'
  else if c = '\\' then some '\\'
  else if c = '/' then some '/'
  else if c = 'b' then some '\x08'
  else if c = 'f' then some '\x0c'
  else if c = 'n' then some '\n'
  else if c = 'r' then some '\r'
  else if c = 't' then some '\t'
  else none

/-- Takes the code of a character behind a backslash and its `u` off the front of a text.  Codes
beyond four digits are written as two, and one of these alone stands for no character. -/
def takeCode? (text : Text) : Option (Option Char × Text) :=
  match text with
  | a :: b :: c :: d :: rest =>
    match hexCode? a b c d with
    | none => none
    | some code =>
      match charOfCode? code with
      | some c => some (some c, rest)
      | none =>
        match rest with
        | '\\' :: 'u' :: a :: b :: c :: d :: others =>
          match hexCode? a b c d with
          | none => none
          | some low =>
            if code < 0xDC00 ∧ 0xDC00 ≤ low ∧ low < 0xE000 then
              some (some (Char.ofNat (0x10000 + (code - 0xD800) * 0x400 + (low - 0xDC00))), others)
            else some (none, rest)
        | _ => some (none, rest)
  | _ => none

theorem length_of_takeCode? {text rest : Text} {c : Option Char}
    (taken : takeCode? text = some (c, rest)) : rest.length < text.length := by
  unfold takeCode? at taken
  split at taken
  · split at taken
    · simp at taken
    · split at taken
      · simp only [Option.some.injEq, Prod.mk.injEq] at taken
        simp only [← taken.2, List.length_cons]
        omega
      · split at taken
        · split at taken
          · simp at taken
          · split at taken
            · simp only [Option.some.injEq, Prod.mk.injEq] at taken
              simp only [← taken.2, List.length_cons]
              omega
            · simp only [Option.some.injEq, Prod.mk.injEq] at taken
              simp only [← taken.2, List.length_cons]
              omega
        · simp only [Option.some.injEq, Prod.mk.injEq] at taken
          simp only [← taken.2, List.length_cons]
          omega
  · simp at taken

/-- Puts a character in front of a string that was taken, if both stand for something. -/
def extendString (c : Option Char) (taken : Option Text × Text) : Option Text × Text :=
  (c.bind fun c => taken.1.map (c :: ·), taken.2)

/-- Takes the rest of a string behind its opening quote, and its closing quote.  The string stands
for no text if one of its codes stands for no character. -/
def takeString? (text : Text) : Option (Option Text × Text) :=
  match text with
  | [] => none
  | c :: rest =>
    if c = '"' then some (some [], rest)
    else if c = '\\' then
      match rest with
      | [] => none
      | kind :: rest =>
        if kind = 'u' then
          match _taken : takeCode? rest with
          | none => none
          | some (c, rest) => (takeString? rest).map (extendString c)
        else
          match ofShortEscape? kind with
          | none => none
          | some c => (takeString? rest).map (extendString (some c))
    else if c.toNat < 32 then none
    else (takeString? rest).map (extendString (some c))
termination_by text.length
decreasing_by
  · have := length_of_takeCode? _taken
    simp only [List.length_cons]
    omega
  · simp only [List.length_cons]
    omega
  · simp only [List.length_cons]
    omega

/-- The number that its digits before and behind the point and its exponent make.  Without point
and exponent it is an integer if it fits 64 bits. -/
def numberOf (negative : Bool) (whole : Text) (fraction exponent : Option Text) :
    Option JsonNumber :=
  let value : Int := if negative then -(Text.digitsValue whole : Int) else Text.digitsValue whole
  let isInteger := fraction.isNone && exponent.isNone && !(negative && value == 0) &&
    decide (-(Nat.pow 2 63 : Int) ≤ value ∧ value < (Nat.pow 2 64 : Int))
  if isInteger then some (.integer value)
  else
    let power := ((exponent.bind Floating.exponent?).getD 0 - (fraction.getD []).length : Int)
    match Floating.ofScientific .double negative (whole ++ fraction.getD []) power with
    | .finite negative steps => some (.floating (.finite negative steps))
    | _ => none

/-- Takes an unsigned number off the front of a text.  It may be too large to stand for one. -/
def takeUnsigned? (negative : Bool) (text : Text) : Option (Option JsonNumber × Text) := do
  let whole := text.takeWhile Char.isDigit
  let behindWhole := text.drop whole.length
  if whole.isEmpty || (whole.length != 1 && whole.head? == some '0') then none
  let (fraction, behindFraction) ← match behindWhole with
    | '.' :: rest =>
      let digits := rest.takeWhile Char.isDigit
      if digits.isEmpty then none else some (some digits, rest.drop digits.length)
    | rest => some (none, rest)
  let (exponent, behindExponent) ← match behindFraction with
    | c :: rest =>
      if c = 'e' ∨ c = 'E' then
        let sign := (rest.take 1).filter fun c => c = '+' ∨ c = '-'
        let digits := (rest.drop sign.length).takeWhile Char.isDigit
        if digits.isEmpty then none
        else some (some (sign ++ digits), rest.drop (sign ++ digits).length)
      else some (none, c :: rest)
    | [] => some (none, [])
  return (numberOf negative whole fraction exponent, behindExponent)

/-- Reads a value that is neither an array nor an object.  Behind a value stands the text that is
left, unless the value is malformed. -/
def readScalar (text : Text) : Json × Option Text :=
  let literal (word : Text) (value : Json) : Json × Option Text :=
    match Text.dropBeginning? word text with
    | none => (.malformed, none)
    | some behind => (value, some behind)
  let number (read : Option (Option JsonNumber × Text)) : Json × Option Text :=
    match read with
    | none => (.malformed, none)
    | some (none, behind) => (.meaningless, some behind)
    | some (some value, behind) => (.number value, some behind)
  match text with
  | [] => (.malformed, none)
  | c :: rest =>
    if c = '"' then
      match takeString? rest with
      | none => (.malformed, none)
      | some (none, behind) => (.meaningless, some behind)
      | some (some contents, behind) => (.string contents, some behind)
    else if c = 'n' then literal "null".toList .null
    else if c = 't' then literal "true".toList (.bool true)
    else if c = 'f' then literal "false".toList (.bool false)
    else if c = '-' then number (takeUnsigned? true rest)
    else number (takeUnsigned? false (c :: rest))

/-- Takes the name of a member and the colon behind it. -/
def takeName? (text : Text) : Option (Text × Option Text) :=
  match text with
  | '"' :: rest => do
    let (name, behind) ← takeString? rest
    return (← name, Text.dropBeginning? [':'] (skipSpaces behind))
  | _ => none

mutual

/-- Reads a value from its first character. -/
def readValue (text : Text) : Json × Option Text :=
  match text with
  | [] => (.malformed, none)
  | c :: rest =>
    if c = '[' then
      let (items, behind) := readItems true rest
      (.array items behind.isSome, behind)
    else if c = '{' then
      let (members, behind) := readMembers true rest
      (.object members behind.isSome, behind)
    else readScalar (c :: rest)
termination_by 2 * text.length

/-- Reads the items of an array up to its closing bracket, which may come at once only before the
first item.  As every value takes a character, less text remains behind an item. -/
def readItems (first : Bool) (text : Text) : List Json × Option Text :=
  let here := skipSpaces text
  match first, here with
  | true, ']' :: rest => ([], some rest)
  | _, _ =>
    match readValue here with
    | (item, none) => ([item], none)
    | (item, some behind) =>
      match skipSpaces behind with
      | ']' :: rest => ([item], some rest)
      | ',' :: rest =>
        if rest.length < text.length then
          let (others, behind) := readItems false rest
          (item :: others, behind)
        else ([item], none)
      | _ => ([item], none)
termination_by 2 * text.length + 1
decreasing_by
  · have := length_skipSpaces text
    omega
  · omega

/-- Reads the members of an object up to its closing brace, which may come at once only before the
first member. -/
def readMembers (first : Bool) (text : Text) : List (Text × Json) × Option Text :=
  let here := skipSpaces text
  match first, here with
  | true, '}' :: rest => ([], some rest)
  | _, _ =>
    match takeName? here with
    | none => ([], none)
    | some (name, none) => ([(name, .malformed)], none)
    | some (name, some behindColon) =>
      let behindSpaces := skipSpaces behindColon
      if behindSpaces.length < text.length then
        match readValue behindSpaces with
        | (value, none) => ([(name, value)], none)
        | (value, some behind) =>
          match skipSpaces behind with
          | '}' :: rest => ([(name, value)], some rest)
          | ',' :: rest =>
            if rest.length < text.length then
              let (others, behind) := readMembers false rest
              ((name, value) :: others, behind)
            else ([(name, value)], none)
          | _ => ([(name, value)], none)
      else ([(name, .malformed)], none)
termination_by 2 * text.length + 1
decreasing_by
  · have : (skipSpaces behindColon).length < text.length := ‹_›
    omega
  · omega

end

/-- The value that a text is, and whether nothing else follows it. -/
def read (text : Text) : Json × Bool :=
  let (value, behind) := readValue (skipSpaces text)
  (value, behind.any fun rest => (skipSpaces rest).isEmpty)

end Json

end AlarmQuery
