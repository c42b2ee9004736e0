import AlarmQuery.Command.Run
import Mathlib.Tactic.Common

/-!
# Checking and parsing a query

Two commands look at a query.  `check` only asks whether it is one and then counts its clauses,
while `parse` asks for the clauses at once.  `Command.Agree` says how what one of them answers can
be told from what the other does.
-/

namespace AlarmQuery

/-! ## What a query is taken for -/

section

variable {query field : Text} {format : OutputFormat} {first second : List LogRecord}

end

/-! ## Requests -/

end AlarmQuery
