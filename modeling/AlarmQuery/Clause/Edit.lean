import AlarmQuery.Clause.Basic
import AlarmQuery.Time.Input

/-!
# Edits of a clause

The changes that a user can make to a clause.
-/

namespace AlarmQuery

/-- A change of a clause. -/
inductive Edit
  | negation (negation : Negation)
  | field (field : Text)
  | term (term : Text)
  | upTo (upTo : Text)
  | literal (literal : Bool)
  | matchType (matchType : MatchType)
  /-- Sets both bounds to times that a user types at the time `now`. -/
  | dateRange (lower upper : Text) (now : Instant)
deriving DecidableEq, Repr

namespace Clause

/-- The clause as a term or as a range.  A term has no upper bound, and a range that had none is
open above. -/
def setMatchType (matchType : MatchType) (clause : Clause) : Clause :=
  match matchType with
  | .term => { clause with upTo := [] }
  | .range | .dateRange => if clause.isRange then clause else { clause with upTo := ['*'] }

/-- The clause after a change. -/
def apply (clause : Clause) : Edit → Clause
  | .negation negation => { clause with negation }
  | .field field => { clause with field }
  | .term term => { clause with term }
  | .upTo upTo => { clause with upTo }
  | .literal literal => { clause with literal }
  | .matchType matchType => clause.setMatchType matchType
  | .dateRange lower upper now =>
    { clause with term := Instant.convertInput lower now, upTo := Instant.convertInput upper now }

/-- The clause after one change after the other. -/
def applyAll (clause : Clause) (edits : List Edit) : Clause := edits.foldl apply clause

end Clause

end AlarmQuery
