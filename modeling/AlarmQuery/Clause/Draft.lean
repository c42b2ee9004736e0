import AlarmQuery.Clause.Basic

/-!
# Drafts of clauses

A clause that is stored in a file has a value for each of some keys, of which only the field is
required.  While it is read, a draft keeps the values that are known, and none may be given twice.
-/

namespace AlarmQuery

namespace Clause

/-- A key of a stored clause. -/
inductive Key
  | negation
  | field
  | term
  | upTo
  | literal
deriving DecidableEq, Repr

namespace Key

/-- All the keys, in the order in which they are stored. -/
def all : List Key := [.negation, .field, .term, .upTo, .literal]

/-- Every key is stored. -/
theorem mem_all (key : Key) : key ∈ all := by cases key <;> decide

/-- The name of a key in a file. -/
def name : Key → Text
  | .negation => "negation".toList
  | .field => "field".toList
  | .term => "term".toList
  | .upTo => "to".toList
  | .literal => "wildcard_literal".toList

/-- The key with a given name. -/
def ofName? (text : Text) : Option Key := all.find? fun key => key.name = text

@[simp]
theorem ofName?_name (key : Key) : ofName? key.name = some key := by
  cases key <;> decide

end Key

/-- The values of a clause that are known. -/
structure Draft where
  negation : Option Negation := none
  field : Option Text := none
  term : Option Text := none
  upTo : Option Text := none
  literal : Option Bool := none
deriving DecidableEq, Repr

namespace Draft

/-- Whether the value of a key is known. -/
def knows (draft : Draft) : Key → Bool
  | .negation => draft.negation.isSome
  | .field => draft.field.isSome
  | .term => draft.term.isSome
  | .upTo => draft.upTo.isSome
  | .literal => draft.literal.isSome

/-- The clause on a field with the values that are known.  The others are those of the clause
that the field has any content. -/
def complete (draft : Draft) (field : Text) : Clause :=
  let default := Clause.any field
  { negation := draft.negation.getD default.negation
    field
    term := draft.term.getD default.term
    upTo := draft.upTo.getD default.upTo
    literal := draft.literal.getD default.literal }

end Draft

/-- The draft of which every value is known. -/
def draft (clause : Clause) : Draft :=
  { negation := some clause.negation
    field := some clause.field
    term := some clause.term
    upTo := some clause.upTo
    literal := some clause.literal }

end Clause

end AlarmQuery
