import AlarmQuery.Error
import AlarmQuery.Query.Parse
import AlarmQuery.Text.Blank

/-!
# From a query to clauses

A query is a list of clauses when it is a single condition, or a group of demanded and excluded
conditions in which groups of alternatives on one field may stand too.  Any other query is turned
down with the first obstacle from the left.
-/

namespace AlarmQuery

namespace Clause

/-- The clause that a leaf is under a negation. -/
def ofLeaf (negation : Negation) (leaf : Leaf) : Except Obstacle Clause :=
  match leaf.condition with
  | .term text => .ok { negation, field := leaf.field, term := text, literal := true }
  | .wildcard pattern =>
    match livePattern? pattern with
    | none => .error (.mixedPattern leaf)
    | some term => .ok { negation, field := leaf.field, term }
  | .startsWith beginning =>
    if beginning.any isWildcard then .error (.mixedBeginning leaf)
    else .ok { negation, field := leaf.field, term := beginning ++ ['*'] }
  | .range lower upper lowerInclusive upperInclusive =>
    if lowerInclusive && upperInclusive then
      match lower, upper with
      | some term, some upTo => .ok { negation, field := leaf.field, term, upTo }
      | _, _ => .error (.openRange leaf)
    else .error (.exclusiveRange leaf)
  | .regexp _ | .fuzzy .. | .everything => .error (.kind (.leaf leaf))

/-- The clause that a member of a group is. -/
def ofMember (occur : Occur) (query : Query) : Except Obstacle Clause :=
  match Negation.ofOccur? occur with
  | none => .error .optional
  | some negation =>
    match query with
    | .leaf leaf => ofLeaf negation leaf
    | query => .error (.kind query)

/-- The clause that one of several alternatives is.  An alternative in parentheses is an optional
group of one. -/
def ofAlternative (occur : Occur) (query : Query) : Except Obstacle Clause :=
  match query with
  | .group members =>
    if occur ≠ .should then .error (.innerOccur members)
    else match members with
      | [(occur, query)] => ofMember occur query
      | members => .error (.innerCount members)
  | query => ofMember occur query

/-- The first clause that is about another field. -/
def otherField? (field : Text) (clauses : List Clause) : Option Text :=
  (clauses.find? fun clause => clause.field ≠ field).map Clause.field

/-- The clauses that a group of alternatives is.  They have to be about one field. -/
def ofAlternatives (members : List (Occur × Query)) : Except Obstacle (List Clause) := do
  let clauses ← members.mapM fun (occur, query) => ofAlternative occur query
  match clauses with
  | [] => return []
  | first :: _ =>
    match otherField? first.field clauses with
    | some field => .error (.differentFields field first.field)
    | none => return clauses

/-- The clauses that a member of the outermost group is. -/
def ofOuterMember (occur : Occur) (query : Query) : Except Obstacle (List Clause) :=
  match query with
  | .group members =>
    if occur ≠ .must then .error .outerOccur else ofAlternatives members
  | query => (ofMember occur query).map ([·])

/-- The clauses that a query is. -/
def ofQuery (query : Query) : Except Obstacle (List Clause) :=
  match query with
  | .group members =>
    (members.mapM fun (occur, query) => ofOuterMember occur query).map List.flatten
  | query => (ofMember .must query).map ([·])

/-- The clauses that a text is as a query.  A blank text is no query, but the empty list of
clauses. -/
def parseList (text field : Text) : Except QueryError (List Clause) :=
  if text.all isBlank then .ok []
  else match Query.parse text field with
    | .error fault => .error (.malformed fault)
    | .ok query => (ofQuery query).mapError .unsupported

end Clause

/-- Whether a text is a query, or blank. -/
def Query.validate (text field : Text) : Except QueryError Unit :=
  if text.all isBlank then .ok ()
  else match Query.parse text field with
    | .error fault => .error (.malformed fault)
    | .ok _ => .ok ()

end AlarmQuery
