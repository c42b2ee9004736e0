import AlarmQuery.Text.Escape

/-!
# Strings of TOML

A string stands between quotes, or between three of them when it goes over several lines.  Between
double quotes a backslash escapes a character, and at the end of a line it joins lines.
-/

namespace AlarmQuery

namespace Toml

/-- Whether a character may stand on a line. -/
def isLineChar (c : Char) : Bool := c == '\t' || (0x20 ≤ c.toNat && c.toNat != 0x7F)

/-- Whether a character separates words on a line. -/
def isSpace (c : Char) : Bool := c == ' ' || c == '\t'

/-- The text behind the end of a line, if it stands at one. -/
def takeNewline? : Text → Option Text
  | '\n' :: rest => some rest
  | '\r' :: '\n' :: rest => some rest
  | _ => none

theorem length_of_takeNewline? {text rest : Text} (taken : takeNewline? text = some rest) :
    rest.length < text.length := by
  unfold takeNewline? at taken
  split at taken
  · simp_all
  · simp only [Option.some.injEq] at taken
    simp only [← taken, List.length_cons]
    omega
  · simp at taken

/-- Skips spaces and line ends. -/
def skipLayout (text : Text) : Text :=
  match text with
  | [] => []
  | c :: rest =>
    if isSpace c then skipLayout rest
    else match _taken : takeNewline? (c :: rest) with
      | some behind => skipLayout behind
      | none => c :: rest
termination_by text.length
decreasing_by
  · simp
  · exact length_of_takeNewline? _taken

theorem length_skipLayout (text : Text) : (skipLayout text).length ≤ text.length := by
  fun_induction skipLayout text with
  | case1 => simp
  | case2 c rest _ ih => exact Nat.le_succ_of_le ih
  | case3 c rest _ behind taken ih =>
    exact Nat.le_trans ih (Nat.le_of_lt (length_of_takeNewline? taken))
  | case4 => simp

/-- The character that a letter behind a backslash stands for. -/
def ofEscapeLetter? (c : Char) : Option Char :=
  if c = 'b' then some '\x08'
  else if c = 't' then some '\t'
  else if c = 'n' then some '\n'
  else if c = 'f' then some '\x0c'
  else if c = 'r' then some '\r'
  else if c = '"' ∨ c = '\\' then some c
  else none

/-- The character with a code of hexadecimal digits. -/
def ofCode? (digits : Text) : Option Char := do
  let values ← digits.mapM Text.hexDigit?
  charOfCode? (values.foldl (fun code value => 16 * code + value) 0)

/-- How many hexadecimal digits follow a letter behind a backslash. -/
def codeLength? (c : Char) : Option Nat :=
  if c = 'u' then some 4 else if c = 'U' then some 8 else none

/-- Takes what stands behind a backslash, and the character that it stands for. -/
def takeEscape? : Text → Option (Char × Text)
  | [] => none
  | c :: rest =>
    match codeLength? c with
    | none => (ofEscapeLetter? c).map fun c => (c, rest)
    | some length =>
      if length ≤ rest.length then
        (ofCode? (rest.take length)).map fun c => (c, rest.drop length)
      else none

theorem length_of_takeEscape? {text rest : Text} {c : Char}
    (taken : takeEscape? text = some (c, rest)) : rest.length < text.length := by
  unfold takeEscape? at taken
  split at taken
  · simp at taken
  · split at taken
    · simp only [Option.map_eq_some_iff, Prod.mk.injEq] at taken
      obtain ⟨_, _, _, rfl⟩ := taken
      simp
    · split at taken
      · simp only [Option.map_eq_some_iff, Prod.mk.injEq] at taken
        obtain ⟨_, _, _, rfl⟩ := taken
        simp only [List.length_cons, List.length_drop]
        omega
      · simp at taken

/-- Takes a string of one line up to its closing double quote. -/
def takeBasic (text : Text) : Option (Text × Text) :=
  match text with
  | [] => none
  | c :: rest =>
    if c = '"' then some ([], rest)
    else if c = '\\' then
      match _taken : takeEscape? rest with
      | none => none
      | some (c, behind) => (takeBasic behind).map fun taken => (c :: taken.1, taken.2)
    else if isLineChar c then (takeBasic rest).map fun taken => (c :: taken.1, taken.2)
    else none
termination_by text.length
decreasing_by
  · have := length_of_takeEscape? _taken
    simp only [List.length_cons]
    omega
  · simp

/-- Takes a string of one line up to its closing single quote. -/
def takeLiteral : Text → Option (Text × Text)
  | [] => none
  | c :: rest =>
    if c = '\'' then some ([], rest)
    else if isLineChar c then (takeLiteral rest).map fun taken => (c :: taken.1, taken.2)
    else none

/-- Takes three quotes that close a string of several lines, and up to two quotes in front of them
that belong to it. -/
def takeClosing? (quote : Char) (text : Text) : Option (Text × Text) :=
  let count := (text.takeWhile (· = quote)).length
  if count < 3 then none
  else
    let extra := min 2 (count - 3)
    some (List.replicate extra quote, text.drop (extra + 3))

/-- Takes a string of several lines up to its three closing quotes. -/
def takeLines (quote : Char) (text : Text) : Option (Text × Text) :=
  match takeClosing? quote text with
  | some closing => some closing
  | none =>
    match _newline : takeNewline? text with
    | some behind => (takeLines quote behind).map fun taken => ('\n' :: taken.1, taken.2)
    | none =>
      match text with
      | [] => none
      | c :: rest =>
        if c = '\\' ∧ quote = '"' then
          match _joined : takeNewline? (rest.dropWhile isSpace) with
          | some behind => takeLines quote (skipLayout behind)
          | none =>
            match _taken : takeEscape? rest with
            | none => none
            | some (c, behind) =>
              (takeLines quote behind).map fun taken => (c :: taken.1, taken.2)
        else if isLineChar c then
          (takeLines quote rest).map fun taken => (c :: taken.1, taken.2)
        else none
termination_by text.length
decreasing_by
  · exact length_of_takeNewline? _newline
  · have := length_skipLayout behind
    have := length_of_takeNewline? _joined
    have := (List.dropWhile_suffix (l := rest) isSpace).length_le
    simp only [List.length_cons]
    omega
  · have := length_of_takeEscape? _taken
    simp only [List.length_cons]
    omega
  · simp

/-- Takes a string behind its opening quote.  Two more quotes open a string of several lines, and
the line end right behind them does not belong to it. -/
def takeString (quote : Char) (text : Text) : Option (Text × Text) :=
  match text with
  | first :: second :: rest =>
    if first = quote ∧ second = quote then takeLines quote ((takeNewline? rest).getD rest)
    else if quote = '"' then takeBasic text
    else takeLiteral text
  | text => if quote = '"' then takeBasic text else takeLiteral text

end Toml

end AlarmQuery
