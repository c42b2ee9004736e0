import AlarmQuery.Text.Escape
import AlarmQuery.Yaml.Source

/-!
# Reading scalars of YAML

Scalars go over several lines.  Where a line of a plain or quoted scalar ends, the line end stands
for a space, and empty lines stand for line ends.  In a scalar that is written line by line, the
line ends stay unless they are folded.
-/

namespace AlarmQuery

namespace Yaml

/-- Whether a character is a space or ends a line. -/
def isGap (c : Char) : Bool := isSpace c || isBreak c

/-- The longest run of spaces and line ends at the beginning of a text. -/
def takeGap (text : Text) : Text := text.takeWhile isGap

/-- The text from its first character that is no space and no line end. -/
def dropGap (text : Text) : Text := text.dropWhile isGap

theorem length_dropGap (text : Text) : (dropGap text).length ≤ text.length :=
  (List.dropWhile_suffix _).length_le

theorem length_dropGap_cons {c : Char} {rest : Text} (blank : isGap c = true) :
    (dropGap (c :: rest)).length < (c :: rest).length := by
  have := length_dropGap rest
  simp only [dropGap, List.dropWhile_cons, blank, if_true, List.length_cons]
  exact Nat.lt_succ_of_le this

/-- What a gap between two words of a scalar stands for. -/
def foldGap (gap : Text) : Text :=
  match gap.filter isBreak with
  | [] => gap
  | first :: others =>
    if first ≠ '\n' then first :: others else if others.isEmpty then [' '] else others

/-- The number of columns between the last line end of a gap and its end. -/
def gapColumn (gap : Text) : Nat := (gap.reverse.takeWhile fun c => !isBreak c).length

/-! ## Plain scalars -/

/-- The characters that separate values between brackets. -/
def flowIndicators : List Char := [',', '[', ']', '{', '}']

/-- Whether a plain scalar ends in front of a text. -/
def endsPlain (inFlow : Bool) : Text → Bool
  | [] => true
  | c :: rest => (c == ':' && atGap rest) || (inFlow && flowIndicators.contains c)

/-- Whether a plain scalar may begin with a text. -/
def beginsPlain (inFlow : Bool) : Text → Bool
  | [] => false
  | c :: rest =>
    if c = '-' then !atGap rest
    else if c = '?' ∨ c = ':' then !inFlow && !atGap rest
    else !isGap c && !(['#', ',', '[', ']', '{', '}', '&', '*', '!', '|', '>', '\'', '"', '%', '@',
      '\x60']).contains c

/-- Whether a tab stands behind the first line end of a gap where spaces have to indent. -/
def hasTabIndent (indent : Nat) : (column : Option Nat) → Text → Bool
  | _, [] => false
  | column, c :: rest =>
    if isBreak c then hasTabIndent indent (some 0) rest
    else match column with
      | none => hasTabIndent indent none rest
      | some column =>
        (c == '\t' && column < indent) || hasTabIndent indent (some (column + 1)) rest

/-- Takes a plain scalar whose lines are indented by at least `indent`, and the gap behind it, and
tells whether a line ends in that gap. -/
def takePlain (inFlow : Bool) (indent : Nat) (text : Text) : Option (Text × Text × Bool) :=
  match text with
  | [] => some ([], [], false)
  | c :: rest =>
    if _blank : isGap c = true then
      let gap := takeGap (c :: rest)
      let behind := dropGap (c :: rest)
      let broken := gap.any isBreak
      let column := gapColumn gap
      if hasTabIndent indent none gap then none
      else if behind.head? == some '#' || endsPlain inFlow behind ||
          (broken && ((!inFlow && column < indent) || (column == 0 && atMarker behind))) then
        some ([], behind, broken)
      else
        (takePlain inFlow indent behind).map fun taken => (foldGap gap ++ taken.1, taken.2)
    else if endsPlain inFlow (c :: rest) then some ([], c :: rest, false)
    else if inFlow && c == ':' &&
        rest.head?.any (fun d => d == '?' || flowIndicators.contains d) then none
    else (takePlain inFlow indent rest).map fun taken => (c :: taken.1, taken.2)
termination_by text.length
decreasing_by
  · exact length_dropGap_cons _blank
  · simp

/-! ## Quoted scalars -/

/-- The character that a letter behind a backslash stands for. -/
def ofEscapeLetter? (c : Char) : Option Char :=
  if c = '0' then some '\x00'
  else if c = 'a' then some '\x07'
  else if c = 'b' then some '\x08'
  else if c = 't' ∨ c = '\t' then some '\t'
  else if c = 'n' then some '\n'
  else if c = 'v' then some '\x0b'
  else if c = 'f' then some '\x0c'
  else if c = 'r' then some '\r'
  else if c = 'e' then some '\x1b'
  else if c = 'N' then some '\x85'
  else if c = '_' then some '\xa0'
  else if c = 'L' then some '\u2028'
  else if c = 'P' then some '\u2029'
  else if c = ' ' ∨ c = '"' ∨ c = '/' ∨ c = '\\' then some c
  else none

/-- How many hexadecimal digits follow a letter behind a backslash. -/
def codeLength? (c : Char) : Option Nat :=
  if c = 'x' then some 2 else if c = 'u' then some 4 else if c = 'U' then some 8 else none

/-- The character with a code of hexadecimal digits. -/
def ofCode? (digits : Text) : Option Char := do
  let values ← digits.mapM Text.hexDigit?
  charOfCode? (values.foldl (fun code value => 16 * code + value) 0)

/-- Takes a scalar up to its closing quote.  A quote inside single quotes is written twice, and
between double quotes a backslash escapes a character or the end of a line. -/
def takeQuoted (quote : Char) (text : Text) : Option (Text × Text) :=
  match text with
  | [] => none
  | c :: rest =>
    if _blank : isGap c = true then
      let gap := takeGap (c :: rest)
      let behind := dropGap (c :: rest)
      if gap.any isBreak && gapColumn gap == 0 && atMarker behind then none
      else (takeQuoted quote behind).map fun taken => (foldGap gap ++ taken.1, taken.2)
    else if c = quote then
      match rest with
      | '\'' :: others =>
        if quote = '\'' then (takeQuoted quote others).map fun taken => ('\'' :: taken.1, taken.2)
        else some ([], rest)
      | rest => some ([], rest)
    else if c = '\\' ∧ quote = '"' then
      match rest with
      | [] => none
      | d :: others =>
        if isBreak d then
          let gap := takeGap others
          let behind := dropGap others
          if gapColumn gap == 0 && atMarker behind then none
          else
            (takeQuoted quote behind).map fun taken => (gap.filter isBreak ++ taken.1, taken.2)
        else match codeLength? d with
          | some length =>
            if length ≤ others.length then
              match ofCode? (others.take length) with
              | none => none
              | some c =>
                (takeQuoted quote (others.drop length)).map fun taken => (c :: taken.1, taken.2)
            else none
          | none =>
            match ofEscapeLetter? d with
            | none => none
            | some c => (takeQuoted quote others).map fun taken => (c :: taken.1, taken.2)
    else (takeQuoted quote rest).map fun taken => (c :: taken.1, taken.2)
termination_by text.length
decreasing_by
  · exact length_dropGap_cons _blank
  · simp only [List.length_cons]
    omega
  · have := length_dropGap others
    simp only [List.length_cons]
    omega
  · simp only [List.length_cons, List.length_drop]
    omega
  · simp only [List.length_cons]
    omega
  · simp

/-! ## Scalars line by line -/

/-- What becomes of the line ends at the end of a scalar. -/
inductive Chomping
  /-- All of them are left out. -/
  | strip
  /-- The first of them stays. -/
  | clip
  /-- All of them stay. -/
  | keep
deriving DecidableEq, Repr

/-- What stands behind the bar of a scalar: how its end is treated and how far its lines are
indented, if that is said. -/
structure BlockHeading where
  chomping : Chomping := .clip
  indent : Option Nat := none
deriving DecidableEq, Repr

/-- Takes one sign or digit off the front of a text into a heading. -/
def BlockHeading.take (heading : BlockHeading) : Text → BlockHeading × Text
  | [] => (heading, [])
  | c :: rest =>
    if heading.chomping = .clip ∧ c = '-' then ({ heading with chomping := .strip }, rest)
    else if heading.chomping = .clip ∧ c = '+' then ({ heading with chomping := .keep }, rest)
    else if heading.indent = none ∧ c.isDigit ∧ c ≠ '0' then
      ({ heading with indent := Text.digit? c }, rest)
    else (heading, c :: rest)

/-- Takes a heading and the rest of its line, where only a comment may stand. -/
def takeHeading? (text : Text) : Option (BlockHeading × Text) :=
  let first := BlockHeading.take {} text
  let second := first.1.take first.2
  let behind := second.2.dropWhile isSpace
  let behind := if behind.head? == some '#' then behind.dropWhile (fun c => !isBreak c) else behind
  match behind with
  | [] => some (second.1, [])
  | c :: rest => if isBreak c then some (second.1, rest) else none

/-- Where the lines of a scalar go on behind empty lines. -/
structure LineStart where
  /-- The ends of the empty lines. -/
  breaks : Text
  column : Nat
  /-- The greatest column that any of the lines reaches with spaces. -/
  widest : Nat
  rest : Text

/-- Skips empty lines and the spaces in front of the next line, up to the column `indent` if that
is known.  Tabs may not stand there. -/
def toLine (indent : Option Nat) : (column widest : Nat) → Text → Option LineStart
  | column, widest, [] => some ⟨[], column, max widest column, []⟩
  | column, widest, c :: rest =>
    let inMargin := indent.all fun indent => column < indent
    if inMargin && c == ' ' then toLine indent (column + 1) widest rest
    else if inMargin && c == '\t' then none
    else if isBreak c then
      (toLine indent 0 (max widest column) rest).map fun start =>
        { start with breaks := c :: start.breaks }
    else some ⟨[], column, max widest column, c :: rest⟩

theorem length_toLine {indent : Option Nat} {column widest : Nat} {text : Text}
    {start : LineStart} (found : toLine indent column widest text = some start) :
    start.rest.length ≤ text.length := by
  induction text generalizing column widest start with
  | nil =>
    simp only [toLine, Option.some.injEq] at found
    simp [← found]
  | cons c rest ih =>
    simp only [toLine] at found
    split at found
    · exact Nat.le_succ_of_le (ih found)
    · split at found
      · simp at found
      · split at found
        · simp only [Option.map_eq_some_iff] at found
          obtain ⟨inner, read, rfl⟩ := found
          exact Nat.le_succ_of_le (show inner.rest.length ≤ rest.length from ih read)
        · simp only [Option.some.injEq] at found
          simp [← found]

/-- The lines of a scalar as far as they have been read. -/
structure Lines where
  text : Text := []
  /-- The end of the last line. -/
  ending : Text := []
  /-- The ends of the empty lines behind it. -/
  breaks : Text := []
  /-- Whether the last line begins with a space. -/
  spaced : Bool := false

namespace Lines

/-- Adds a line.  A folded line end is a space or, before empty lines, nothing, unless one of its
lines begins with a space. -/
def add (lines : Lines) (folded : Bool) (line ending breaks : Text) : Lines :=
  let spaced := line.head?.any isSpace
  let joint :=
    if folded && lines.ending == ['\n'] && !lines.spaced && !spaced then
      if lines.breaks.isEmpty then [' '] else []
    else lines.ending
  { text := lines.text ++ joint ++ lines.breaks ++ line, ending, breaks, spaced }

/-- The text with the line ends that stay at its end. -/
def chomped (lines : Lines) : Chomping → Text
  | .strip => lines.text
  | .clip => lines.text ++ lines.ending
  | .keep => lines.text ++ lines.ending ++ lines.breaks

end Lines

/-- Takes the lines that are indented by `indent`, and the gap behind them. -/
def takeLines (folded : Bool) (indent : Nat) (lines : Lines) (column : Nat) (text : Text) :
    Option (Lines × Text) :=
  if column ≠ indent then some (lines, text)
  else match text with
    | [] => some (lines, [])
    | c :: rest =>
      let line := (c :: rest).takeWhile fun c => !isBreak c
      match _behind : (c :: rest).dropWhile fun c => !isBreak c with
      | [] => some (lines.add folded line [] [], [])
      | ending :: others =>
        match _next : toLine (some indent) 0 0 others with
        | none => none
        | some start =>
          takeLines folded indent (lines.add folded line [ending] start.breaks) start.column
            start.rest
termination_by text.length
decreasing_by
  have shorter := (List.dropWhile_suffix (l := c :: rest) fun c => !isBreak c).length_le
  have := length_toLine _next
  rw [_behind] at shorter
  simp only [List.length_cons] at shorter ⊢
  omega

/-- Takes a scalar that is written line by line inside a collection whose entries stand at column
`parent`.  The first line that is not empty tells how far the lines are indented where the heading
does not, and they are indented further than the collection. -/
def takeBlock (folded : Bool) (parent : Int) (text : Text) : Option (Text × Text) := do
  let (heading, body) ← takeHeading? text
  let least := max 1 (parent + 1).toNat
  let known := heading.indent.map fun indent => parent.toNat + indent
  let start ← toLine known 0 0 body
  let indent := known.getD (max start.widest least)
  let (lines, rest) ← takeLines folded indent { breaks := start.breaks } start.column start.rest
  return (lines.chomped heading.chomping, rest)

/-! ## Names and tags -/

/-- Whether a character may stand in a name. -/
def isNameChar (c : Char) : Bool := c.isAlphanum || c == '_' || c == '-'

/-- Takes the name of a value.  It ends at a gap or at punctuation. -/
def takeName? (text : Text) : Option (Text × Text) :=
  let name := text.takeWhile isNameChar
  let rest := text.drop name.length
  if name.isEmpty then none
  else if atGap rest || rest.head?.any (['?', ':', ',', ']', '}', '%', '@', '\x60']).contains then
    some (name, rest)
  else none

/-- Whether a character may stand in a tag. -/
def isTagChar (c : Char) : Bool :=
  isNameChar c || ([';', '/', '?', ':', '@', '&', '=', '+', '$', '.', '!', '~', '*', '\'', '(',
    ')', '%']).contains c

/-- Reads the characters of a tag that are written as a percent sign and a code. -/
def ofPercent? : Text → Option Text
  | [] => some []
  | '%' :: first :: second :: rest => do
    let code := 16 * (← Text.hexDigit? first) + (← Text.hexDigit? second)
    if code < 0x80 then return Char.ofNat code :: (← ofPercent? rest) else none
  | c :: rest => if c = '%' then none else (ofPercent? rest).map (c :: ·)

/-- What two exclamation marks stand for in front of a tag. -/
def standardTags : Text := "tag:yaml.org,2002:".toList

/-- The tag that stands behind an exclamation mark. -/
def ofTagText? (text : Text) : Option Text :=
  match text with
  | '!' :: suffix => if suffix.isEmpty then none else (ofPercent? suffix).map (standardTags ++ ·)
  | text =>
    if (text.dropWhile isNameChar).head? == some '!' then none
    else (ofPercent? text).map ('!' :: ·)

/-- Takes a tag behind its exclamation mark.  It ends at a gap, or between brackets at a comma. -/
def takeTag? (inFlow : Bool) (text : Text) : Option (Text × Text) := do
  let (tag, rest) ← match text with
    | '<' :: behind =>
      let uri := behind.takeWhile fun c => isTagChar c || (flowIndicators.take 3).contains c
      match behind.drop uri.length with
      | '>' :: rest => if uri.isEmpty then none else (ofPercent? uri).map fun tag => (tag, rest)
      | _ => none
    | text =>
      let body := text.takeWhile isTagChar
      (ofTagText? body).map fun tag => (tag, text.drop body.length)
  if atGap rest || (inFlow && rest.head? == some ',') then return (tag, rest) else none

end Yaml

end AlarmQuery
