import AlarmQuery.Text.Basic

/-!
# TOML documents

A document is a list of statements: a value for a key, or a heading that opens a table.  Keys are
paths, since tables hold tables.  Only texts, arrays and tables are values here, because settings
have no others.
-/

namespace AlarmQuery

/-- A TOML value. -/
inductive Toml
  | string (text : Text)
  | array (items : List Toml)
  | table (members : List (List Text × Toml))

namespace Toml

/-- A statement of a document. -/
inductive Statement
  /-- Gives the key at a path of the table that is open a value. -/
  | assign (path : List Text) (value : Toml)
  /-- Opens the table at a path. -/
  | enter (path : List Text)
  /-- Opens a further table of the array at a path. -/
  | append (path : List Text)

/-- The text of a value that is one. -/
def text? : Toml → Option Text
  | .string text => some text
  | _ => none

/-- The items of a value that is an array. -/
def items? : Toml → Option (List Toml)
  | .array items => some items
  | _ => none

/-- Whether a value is an array or a table without contents. -/
def isEmpty : Toml → Bool
  | .array items => items.isEmpty
  | .table members => members.isEmpty
  | .string _ => false

end Toml

end AlarmQuery
