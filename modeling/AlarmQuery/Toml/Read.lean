import AlarmQuery.Toml.Basic
import AlarmQuery.Toml.ReadString

/-!
# Reading TOML

A document is read statement by statement, each on a line of its own.  Arrays may go over several
lines, tables between braces may not.  Every statement and every value takes at least one
character, so the length of the text bounds how long reading takes.
-/

namespace AlarmQuery

namespace Toml

/-- Skips spaces. -/
def skipSpaces (text : Text) : Text := text.dropWhile isSpace

/-- Skips a comment, if one stands here. -/
def skipComment? (text : Text) : Option Text :=
  match text with
  | '#' :: rest => some (rest.dropWhile isLineChar)
  | text => some text

/-- Skips the rest of a line on which no more stands, and its end. -/
def endLine? (text : Text) : Option Text := do
  let behind ← skipComment? (skipSpaces text)
  if behind.isEmpty then return [] else takeNewline? behind

/-- Skips spaces, comments and line ends. -/
def skipLines : (budget : Nat) → Text → Text
  | 0, text => text
  | budget + 1, text =>
    let here := skipSpaces text
    if here.isEmpty then []
    else match endLine? here with
      | some behind => skipLines budget behind
      | none => here

/-- Whether a character may stand in a key without quotes. -/
def isKeyChar (c : Char) : Bool := c.isAlphanum || c == '_' || c == '-'

/-- Takes one part of a path. -/
def takeKey? (text : Text) : Option (Text × Text) :=
  match text with
  | '"' :: rest => takeBasic rest
  | '\'' :: rest => takeLiteral rest
  | text =>
    let key := text.takeWhile isKeyChar
    if key.isEmpty then none else some (key, text.drop key.length)

/-- Takes a path: keys with points between them. -/
def takePath? : (budget : Nat) → Text → Option (List Text × Text)
  | 0, _ => none
  | budget + 1, text => do
    let (key, behind) ← takeKey? text
    match skipSpaces behind with
    | '.' :: rest =>
      let (others, behind) ← takePath? budget (skipSpaces rest)
      return (key :: others, behind)
    | behind => return ([key], behind)

mutual

/-- Takes a value. -/
def takeValue? : (budget : Nat) → Text → Option (Toml × Text)
  | 0, _ => none
  | budget + 1, text =>
    match text with
    | '"' :: rest => (takeString '"' rest).map fun (text, behind) => (.string text, behind)
    | '\'' :: rest => (takeString '\'' rest).map fun (text, behind) => (.string text, behind)
    | '[' :: rest =>
      (takeItems? budget (skipLines (rest.length + 1) rest)).map fun (items, behind) =>
        (.array items, behind)
    | '{' :: rest =>
      match skipSpaces rest with
      | '}' :: behind => some (.table [], behind)
      | rest => (takeMembers? budget rest).map fun (members, behind) => (.table members, behind)
    | _ => none

/-- Takes the items of an array up to its closing bracket. -/
def takeItems? : (budget : Nat) → Text → Option (List Toml × Text)
  | 0, _ => none
  | budget + 1, text =>
    match text with
    | ']' :: rest => some ([], rest)
    | text => do
      let (item, behind) ← takeValue? budget text
      match skipLines (behind.length + 1) behind with
      | ',' :: rest =>
        let (others, behind) ← takeItems? budget (skipLines (rest.length + 1) rest)
        return (item :: others, behind)
      | ']' :: rest => return ([item], rest)
      | _ => none

/-- Takes the members of a table between braces up to the closing one. -/
def takeMembers? : (budget : Nat) → Text → Option (List (List Text × Toml) × Text)
  | 0, _ => none
  | budget + 1, text => do
    let (path, behind) ← takePath? (text.length + 1) text
    match behind with
    | '=' :: rest =>
      let (value, behind) ← takeValue? budget (skipSpaces rest)
      match skipSpaces behind with
      | ',' :: rest =>
        let (others, behind) ← takeMembers? budget (skipSpaces rest)
        return ((path, value) :: others, behind)
      | '}' :: rest => return ([(path, value)], rest)
      | _ => none
    | _ => none

end

/-- Takes the path of a heading and its closing brackets. -/
def takeHeading? (closing text : Text) : Option (List Text × Text) := do
  let (path, behind) ← takePath? (text.length + 1) (skipSpaces text)
  let behind ← Text.dropBeginning? closing behind
  return (path, behind)

/-- Takes a statement, up to the end of its line. -/
def takeStatement? (text : Text) : Option (Statement × Text) := do
  let (statement, behind) ← match text with
    | '[' :: '[' :: rest =>
      (takeHeading? [']', ']'] rest).map fun (path, behind) => (Statement.append path, behind)
    | '[' :: rest =>
      (takeHeading? [']'] rest).map fun (path, behind) => (Statement.enter path, behind)
    | text => do
      let (path, behind) ← takePath? (text.length + 1) text
      match behind with
      | '=' :: rest =>
        let (value, behind) ← takeValue? (2 * rest.length + 1) (skipSpaces rest)
        pure (Statement.assign path value, behind)
      | _ => none
  return (statement, ← endLine? behind)

/-- Reads the statements of a document. -/
def readStatements? : (budget : Nat) → Text → Option (List Statement)
  | 0, _ => none
  | budget + 1, text => do
    let here := skipLines (text.length + 1) text
    if here.isEmpty then return []
    else
      let (statement, behind) ← takeStatement? here
      return statement :: (← readStatements? budget behind)

/-- The statements of a text.  A mark of the byte order in front of it is left out. -/
def ofText? (text : Text) : Option (List Statement) :=
  let text := match text with
    | '\ufeff' :: rest => rest
    | text => text
  readStatements? (text.length + 1) text

end Toml

end AlarmQuery
