import AlarmQuery.Field
import AlarmQuery.Toml.Read

/-!
# Settings

What a user can settle for all commands: the field that queries are about where they name none, how
clauses are printed, and which fields are known.  A settings file may leave out any of these and
may say nothing else.
-/

namespace AlarmQuery

/-- How clauses are printed. -/
inductive OutputFormat
  | table
  | json
  | yaml
deriving DecidableEq, Repr

namespace OutputFormat

/-- The name of a format. -/
def name : OutputFormat → Text
  | .table => "table".toList
  | .json => "json".toList
  | .yaml => "yaml".toList

/-- The format with a given name. -/
def ofName? (text : Text) : Option OutputFormat :=
  [.table, .json, .yaml].find? fun format => format.name = text

end OutputFormat

/-- What a user can settle for all commands. -/
structure Settings where
  defaultField : Text := Field.standard
  output : OutputFormat := .table
  /-- The fields that a query may be about without a warning. -/
  fields : List Text := Field.names
deriving DecidableEq, Repr

namespace Settings

/-- What a settings file says on how clauses are printed.  Instead of the name of a format it may
hold a table with that name as the key of something empty, and that table may have a heading. -/
inductive OutputSetting
  | unset
  | chosen (format : OutputFormat)
  /-- A table under headings, whether it has one of its own, and what it holds. -/
  | table (opened : Bool) (format : Option OutputFormat)
deriving DecidableEq, Repr

/-- The format that is settled, if a table does not leave it open. -/
def OutputSetting.format? : OutputSetting → Option OutputFormat
  | .unset => some ({} : Settings).output
  | .chosen format => some format
  | .table _ format => format

/-- The statements of a settings file as far as they have been read. -/
structure Draft where
  defaultField : Option Text := none
  output : OutputSetting := .unset
  fields : Option (List Text) := none
  /-- The table whose keys the next statements are about. -/
  inside : List Text := []
deriving DecidableEq, Repr

/-- The format that a value names. -/
def formatOf? : Toml → Option OutputFormat
  | .string name => OutputFormat.ofName? name
  | .table [([name], value)] => if value.isEmpty then OutputFormat.ofName? name else none
  | _ => none

/-- The texts in an array of texts. -/
def textsOf? (value : Toml) : Option (List Text) := value.items?.bind (·.mapM Toml.text?)

namespace Draft

/-- Gives a key a value.  No key may be given two. -/
def assign? (draft : Draft) (path : List Text) (value : Toml) : Option Draft :=
  match draft.inside ++ path with
  | [key] =>
    if key = "default_field".toList ∧ draft.defaultField = none then
      value.text?.map fun text => { draft with defaultField := some text }
    else if key = "output".toList ∧ draft.output = .unset then
      (formatOf? value).map fun format => { draft with output := .chosen format }
    else if key = "fields".toList ∧ draft.fields = none then
      (textsOf? value).map fun fields => { draft with fields := some fields }
    else none
  | [key, name] =>
    if key = "output".toList ∧ value.isEmpty then
      match draft.inside, draft.output, OutputFormat.ofName? name with
      | [], .unset, some format => some { draft with output := .chosen format }
      | _ :: _, .table opened none, some format =>
        some { draft with output := .table opened format }
      | _, _, _ => none
    else none
  | _ => none

/-- Opens a table.  No table may be opened twice. -/
def enter? (draft : Draft) (path : List Text) : Option Draft :=
  let inside (output : OutputSetting) : Draft := { draft with output, inside := path }
  match path with
  | [key] =>
    if key = "output".toList then
      match draft.output with
      | .unset => some (inside (.table true none))
      | .table false format => some (inside (.table true format))
      | _ => none
    else none
  | [key, name] =>
    if key = "output".toList then
      match draft.output, OutputFormat.ofName? name with
      | .unset, some format => some (inside (.table false format))
      | .table opened none, some format => some (inside (.table opened format))
      | _, _ => none
    else none
  | _ => none

/-- Adds a statement.  Settings have no arrays of tables. -/
def add? (draft : Draft) : Toml.Statement → Option Draft
  | .assign path value => draft.assign? path value
  | .enter path => draft.enter? path
  | .append _ => none

/-- The settings with what was said.  The others are those that hold without a file. -/
def complete? (draft : Draft) : Option Settings := do
  let output ← draft.output.format?
  let default : Settings := {}
  return {
    defaultField := draft.defaultField.getD default.defaultField
    output
    fields := draft.fields.getD default.fields }

end Draft

/-- The settings that a file holds. -/
def ofText? (text : Text) : Option Settings := do
  let statements ← Toml.ofText? text
  let draft ← statements.foldlM Draft.add? {}
  draft.complete?

/-- Whether a field is known. -/
def knows (settings : Settings) (field : Text) : Bool := settings.fields.contains field

end Settings

end AlarmQuery
