import AlarmQuery.Error

/-!
# From clauses to a query

The clauses on one field are alternatives, and for every field one of them has to hold.  The query
keeps the fields in the order in which they are first named, and the clauses on a field in theirs.
-/

namespace AlarmQuery

namespace Clause

/-- The fields that clauses are about, in the order in which they are first named. -/
def fields (clauses : List Clause) : List Text := (clauses.map Clause.field).eraseDups

/-- The clauses on one field, in their order. -/
def onField (field : Text) (clauses : List Clause) : List Clause :=
  clauses.filter fun clause => clause.field = field

/-- The clauses field by field. -/
def groups (clauses : List Clause) : List (List Clause) :=
  (fields clauses).map fun field => onField field clauses

/-- The clauses in the order of their groups. -/
def grouped (clauses : List Clause) : List Clause := (groups clauses).flatten

/-- The alternatives of one group. -/
def groupText (group : List Clause) : Text :=
  '(' :: Text.join ") (".toList (group.map Clause.text) ++ [')']

/-- The groups of a list of clauses, each of them demanded. -/
def listText (clauses : List Clause) : Text :=
  match groups clauses with
  | [] => []
  | groups => ['+', '('] ++ Text.join ") +(".toList (groups.map groupText) ++ [')']

/-- The first clause that names no field, and its index. -/
def unnamed? (clauses : List Clause) : Option (Clause × Nat) :=
  clauses.zipIdx.find? fun indexed => indexed.1.field.isEmpty

/-- The query that a list of clauses is.  Every clause has to name a field. -/
def toQuery (clauses : List Clause) : Except QueryError Text :=
  match unnamed? clauses with
  | some (clause, index) => .error (.unnamedField index clause)
  | none => .ok (listText clauses)

end Clause

end AlarmQuery
