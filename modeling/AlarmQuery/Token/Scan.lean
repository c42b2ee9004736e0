import AlarmQuery.Token.Read

/-!
# From a text to its tokens

`scan` reads tokens, and skips the spaces before and between them, until the text ends.
-/

namespace AlarmQuery

/-- The tokens of a text, and where the text ends. -/
structure Scanned where
  tokens : List (Placed Token)
  stop : Nat
deriving DecidableEq, Repr

/-- The tokens from a place on. -/
def scanFrom (start : Cursor) : Except (Placed Fault) Scanned :=
  let first := start.skipWhile isSpace
  match _ahead : first.rest with
  | [] => .ok ⟨[], first.position⟩
  | c :: rest =>
    match _read : readToken first.position c rest with
    | .error fault => .error fault
    | .ok (token, behind) =>
      match scanFrom behind with
      | .error fault => .error fault
      | .ok scanned => .ok ⟨⟨token, first.position⟩ :: scanned.tokens, scanned.stop⟩
termination_by start.rest.length
decreasing_by
  have shorter := length_lt_of_readToken _read
  have skipped := (start.reads_skipWhile isSpace).length_rest
  rw [_ahead] at skipped
  omega

/-- The tokens of a text. -/
def scan (text : Text) : Except (Placed Fault) Scanned := scanFrom (Cursor.ofText text)

end AlarmQuery
