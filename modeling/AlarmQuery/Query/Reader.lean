import AlarmQuery.Token.Fault

/-!
# Readers of tokens

A reader takes a value off the front of a sequence of tokens.  It always takes a token, so that
readers can be repeated until the tokens run out.
-/

namespace AlarmQuery

/-- The tokens that are still to be read. -/
abbrev Tokens := List (Placed Token)

/-- What a step of reading comes to: a value and the tokens behind it, or a fault. -/
abbrev Reading (α : Type) := Except (Placed Fault) (α × Tokens)

/-- A reading of `tokens` leaves at most as many tokens. -/
def Reading.Within {α : Type} (tokens : Tokens) (reading : Reading α) : Prop :=
  ∀ {value rest}, reading = .ok (value, rest) → rest.length ≤ tokens.length

/-- A reading of `tokens` leaves fewer tokens. -/
def Reading.Progresses {α : Type} (tokens : Tokens) (reading : Reading α) : Prop :=
  ∀ {value rest}, reading = .ok (value, rest) → rest.length < tokens.length

/-- A step of reading that always takes a token. -/
structure Reader (α : Type) where
  run : (tokens : Tokens) → Reading α
  progress : ∀ tokens, (run tokens).Progresses tokens

/-- The fault of tokens that begin with something else than what is expected. -/
def unexpected (stop : Nat) (expected : Expectation) : Tokens → Placed Fault
  | [] => ⟨.unexpectedToken none expected, stop⟩
  | token :: _ => ⟨.unexpectedToken (some token.value) expected, token.position⟩

end AlarmQuery
