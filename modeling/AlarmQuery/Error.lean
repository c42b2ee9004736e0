import AlarmQuery.Clause.Basic
import AlarmQuery.Token.Fault

/-!
# Errors

What can go wrong between a query and a list of clauses: the text is no query, the query has no
list of clauses, or a clause has no query.
-/

namespace AlarmQuery

/-- Why a query is no list of clauses. -/
inductive Obstacle
  /-- A member of the outermost group is a group that is not demanded. -/
  | outerOccur
  /-- A group inside the groups of one field is not optional. -/
  | innerOccur (members : List (Occur × Query))
  /-- A group inside the groups of one field has not exactly one member. -/
  | innerCount (members : List (Occur × Query))
  /-- Clauses of one group are about different fields. -/
  | differentFields (found expected : Text)
  /-- A condition is neither demanded nor excluded. -/
  | optional
  /-- No clause is a query of this kind. -/
  | kind (query : Query)
  /-- A pattern has wildcards and literal wildcard characters. -/
  | mixedPattern (leaf : Leaf)
  /-- A beginning has literal wildcard characters. -/
  | mixedBeginning (leaf : Leaf)
  /-- A range excludes a bound. -/
  | exclusiveRange (leaf : Leaf)
  /-- A range has no bound on one side. -/
  | openRange (leaf : Leaf)

namespace Obstacle

/-- The words in which an obstacle is reported. -/
def message : Obstacle → Text
  | .outerOccur => "For nested bool queries the first level only supports MUST".toList
  | .innerOccur members =>
    "For nested bool require OR for the second level, offending clause: ".toList ++
      (Query.group members).text
  | .innerCount members =>
    "Inner bool query must have one clause, found ".toList ++ Text.ofNat members.length ++
      ": ".toList ++ (Query.group members).text
  | .differentFields found expected =>
    "Nested clauses must all apply to the same field, found: ".toList ++ found ++
      " and ".toList ++ expected
  | .optional => "unsupported occur value: ".toList ++ Occur.should.name
  | .kind query =>
    "unsupported query type: ".toList ++ query.kind ++ " query ".toList ++ query.text
  | .mixedPattern leaf =>
    "wildcard pattern mixes literal and wildcard characters: ".toList ++ leaf.text
  | .mixedBeginning leaf =>
    "prefix mixes literal and wildcard characters: ".toList ++ leaf.text
  | .exclusiveRange leaf => "only inclusive ranges are supported: ".toList ++ leaf.text
  | .openRange leaf => "open-ended ranges are not supported: ".toList ++ leaf.text

end Obstacle

/-- What can go wrong between a query and a list of clauses. -/
inductive QueryError
  /-- The text is no query. -/
  | malformed (fault : Placed Fault)
  /-- The query is no list of clauses. -/
  | unsupported (obstacle : Obstacle)
  /-- The clause at this index of a list names no field. -/
  | unnamedField (index : Nat) (clause : Clause)

namespace QueryError

/-- The words in which an error is reported. -/
def message : QueryError → Text
  | .malformed fault => fault.value.message
  | .unsupported obstacle => obstacle.message
  | .unnamedField index clause =>
    "clause ".toList ++ Text.ofNat (index + 1) ++ " (".toList ++ clause.text ++
      ") has an empty field name".toList

/-- The message behind a heading that tells what kind of error it is. -/
def display : QueryError → Text
  | .malformed fault =>
    "Syntax error at column ".toList ++ Text.ofNat (fault.position + 1) ++ ": ".toList ++
      fault.value.message
  | .unsupported obstacle => "Query not supported: ".toList ++ obstacle.message
  | .unnamedField index clause =>
    "Invalid clause: ".toList ++ (unnamedField index clause).message

/-- Whether the text is no query. -/
def isMalformed : QueryError → Bool
  | .malformed _ => true
  | _ => false

/-- Whether the query is no list of clauses. -/
def isUnsupported : QueryError → Bool
  | .unsupported _ => true
  | _ => false

end QueryError

end AlarmQuery
