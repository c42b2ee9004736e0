import AlarmQuery.Query.Basic
import AlarmQuery.Text.Escape

/-!
# Clauses

A clause is one condition of a search as a user edits it: a field that is, or is not, a term or in
a range.  Its query text is what counts: two clauses are the same search condition when they have
the same text, and a clause's flag for literal wildcards matters only where there are wildcards.
-/

namespace AlarmQuery

/-- Whether a clause demands or excludes what it describes. -/
inductive Negation
  | is
  | isNot
deriving DecidableEq, Repr

namespace Negation

/-- The name of a negation in clause lists. -/
def name : Negation → Text
  | .is => "is".toList
  | .isNot => "is not".toList

/-- The negation with a given name or one of its short names. -/
def ofName? (text : Text) : Option Negation :=
  if text = "is".toList then some .is
  else if text ∈ ["is not".toList, "is_not".toList, "not".toList] then some .isNot
  else none

/-- How a clause takes part in a group. -/
def occur : Negation → Occur
  | .is => .must
  | .isNot => .mustNot

/-- The negation of a member of a group.  There is none for a member that is optional. -/
def ofOccur? : Occur → Option Negation
  | .must => some .is
  | .mustNot => some .isNot
  | .should => none

@[simp]
theorem ofOccur?_occur (negation : Negation) : ofOccur? negation.occur = some negation := by
  cases negation <;> rfl

end Negation

/-- How the content of a clause is edited. -/
inductive MatchType
  | term
  | range
  | dateRange
deriving DecidableEq, Repr

namespace MatchType

/-- The name of a match type. -/
def name : MatchType → Text
  | .term => "Term".toList
  | .range => "in Range".toList
  | .dateRange => "in Time".toList

/-- The match type with a given name. -/
def ofName? (text : Text) : Option MatchType :=
  [.term, .range, .dateRange].find? fun matchType => matchType.name = text

end MatchType

/-- One condition of a search. -/
structure Clause where
  negation : Negation := .is
  field : Text
  /-- The term, or the lower bound of a range. -/
  term : Text := ['*']
  /-- The upper bound of a range.  It is empty when the clause is no range. -/
  upTo : Text := []
  /-- Whether `*` and `?` stand for themselves. -/
  literal : Bool := false
deriving DecidableEq, Repr

namespace Clause

/-- The clause that a field has any content. -/
def any (field : Text) : Clause := { field }

/-- Whether the clause is a range. -/
def isRange (clause : Clause) : Bool := !clause.upTo.isEmpty

/-- How the clause is edited.  A range of dates is a range like any other. -/
def matchType (clause : Clause) : MatchType := if clause.isRange then .range else .term

/-- The content of a clause in a query. -/
def conditionText (clause : Clause) : Text :=
  let term := escape clause.literal clause.term
  if clause.isRange then
    ['[', '"'] ++ term ++ "\" TO \"".toList ++ escape clause.literal clause.upTo ++ ['"', ']']
  else term

/-- The clause as a query. -/
def text (clause : Clause) : Text :=
  clause.negation.occur.operator ++ escape true clause.field ++ ':' :: clause.conditionText

/-- Two clauses are the same condition when they have the same text. -/
def Same (first second : Clause) : Prop := first.text = second.text

instance (first second : Clause) : Decidable (Same first second) :=
  inferInstanceAs (Decidable (first.text = second.text))

theorem Same.refl (clause : Clause) : Same clause clause := rfl

theorem Same.symm {first second : Clause} (same : Same first second) : Same second first :=
  Eq.symm same

theorem Same.trans {first second third : Clause} (one : Same first second)
    (two : Same second third) : Same first third :=
  Eq.trans one two

end Clause

end AlarmQuery
