import AlarmQuery.Clause.OfQuery
import AlarmQuery.Clause.ToQuery
import AlarmQuery.Field

/-!
# Query builders

A builder holds a search while it is edited, as a list of clauses beside the text of the query that
was typed last.  A query that is no list of clauses is the search as it was typed, and the status
says why.  The clauses from before stay, and a query or a list of clauses that is set later takes
over again.
-/

namespace AlarmQuery

/-- What a user is told about the last query. -/
inductive Status
  | ok
  /-- The text is no query. -/
  | invalid (display : Text)
  /-- The query is no list of clauses. -/
  | tooComplex (display : Text)
deriving DecidableEq, Repr

/-- The words in which a status is shown. -/
def Status.message : Status → Text
  | .ok => "ok".toList
  | .invalid display => "invalid query: ".toList ++ display
  | .tooComplex display => "query too complex to edit: ".toList ++ display

/-- The status that an error leads to. -/
def QueryError.status (error : QueryError) : Status :=
  if error.isMalformed then .invalid error.display else .tooComplex error.display

/-- The state of a search that is being edited. -/
structure Builder where
  /-- The field that a query is about where it names none. -/
  defaultField : Text
  clauses : List Clause
  /-- The query that was set last as a text, whether it is a list of clauses or not. -/
  raw : Text
  /-- Whether the clauses are the search, and not the text. -/
  editable : Bool
  status : Status
deriving DecidableEq, Repr

namespace Builder

/-- A builder without clauses. -/
def new (defaultField : Text) : Builder :=
  { defaultField, clauses := [], raw := [], editable := true, status := .ok }

/-- The query to search with. -/
def query (builder : Builder) : Except QueryError Text :=
  if builder.editable then Clause.toQuery builder.clauses else .ok builder.raw

/-- Sets a query.  Its clauses take the place of those from before, if it has any. -/
def setQuery (builder : Builder) (text : Text) : Builder :=
  match Clause.parseList text builder.defaultField with
  | .ok clauses => { builder with raw := text, clauses, editable := true, status := .ok }
  | .error error => { builder with raw := text, editable := false, status := error.status }

/-- Adds a clause on the standard field that matches anything, after it was edited. -/
def add (builder : Builder) (edit : Clause → Clause) : Builder :=
  { builder with clauses := builder.clauses ++ [edit (.any Field.standard)] }

/-- Removes the clause at an index, if there is one. -/
def remove (builder : Builder) (index : Nat) : Builder :=
  { builder with clauses := builder.clauses.eraseIdx index }

/-- Sets the clauses.  The text of the last query stays behind and is no longer looked at. -/
def setClauses (builder : Builder) (clauses : List Clause) : Builder :=
  { builder with clauses, editable := true, status := .ok }

end Builder

end AlarmQuery
