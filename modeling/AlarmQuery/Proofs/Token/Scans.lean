import AlarmQuery.Proofs.Text.Letter
import AlarmQuery.Token.Scan

/-!
# Scanning piece by piece

`Scans start tokens stop` says that scanning from `start` takes exactly `tokens` before it comes to
`stop`.  It composes, whatever follows, so the tokens of a text are found from those of its pieces.
One step of it is `firstToken`, which does not depend on whether what follows can be scanned.
-/

namespace AlarmQuery

/-- Tokens in front of what was scanned. -/
def Scanned.behind (tokens : List (Placed Token)) (scanned : Scanned) : Scanned :=
  ⟨tokens ++ scanned.tokens, scanned.stop⟩

theorem Scanned.behind_append (first second : List (Placed Token)) (scanned : Scanned) :
    scanned.behind (first ++ second) = (scanned.behind second).behind first := by
  simp [behind]

/-- From `start` on, `tokens` are scanned first, and then what stands at `stop`. -/
def Scans (start : Cursor) (tokens : List (Placed Token)) (stop : Cursor) : Prop :=
  scanFrom start = (scanFrom stop).map (Scanned.behind tokens)

namespace Scans

theorem refl (start : Cursor) : Scans start [] start := by
  unfold Scans
  cases scanFrom start <;> rfl

theorem trans {start middle stop : Cursor} {first second : List (Placed Token)}
    (one : Scans start first middle) (two : Scans middle second stop) :
    Scans start (first ++ second) stop := by
  unfold Scans at one two ⊢
  rw [one, two]
  cases scanFrom stop with
  | error fault => rfl
  | ok scanned => exact congrArg Except.ok (Scanned.behind_append first second scanned).symm

theorem recount {start : Cursor} {tokens : List (Placed Token)} {position other : Nat}
    {rest : Text} (scans : Scans start tokens ⟨position, rest⟩) (same : position = other) :
    Scans start tokens ⟨other, rest⟩ :=
  same ▸ scans

end Scans

/-! ## One step -/

theorem Cursor.skipWhile_cons {property : Char → Bool} {c : Char} (lacks : property c = false)
    (position : Nat) (rest : Text) :
    Cursor.skipWhile property ⟨position, c :: rest⟩ = ⟨position, c :: rest⟩ := by
  simp [Cursor.skipWhile, Cursor.takeWhile, lacks]

theorem Cursor.skipWhile_cons_of_has {property : Char → Bool} {c : Char} (has : property c = true)
    (position : Nat) (rest : Text) :
    Cursor.skipWhile property ⟨position, c :: rest⟩ =
      Cursor.skipWhile property ⟨position + 1, rest⟩ := by
  simp only [Cursor.skipWhile, Cursor.takeWhile, List.takeWhile_cons_of_pos has,
    List.dropWhile_cons_of_pos has, List.length_cons, Cursor.mk.injEq, and_true]
  omega

/-- A run of characters is taken up to something else. -/
theorem Cursor.takeWhile_append {property : Char → Bool} {run : Text}
    (has : ∀ c ∈ run, property c = true) (position : Nat) {rest : Text}
    (stops : ∀ c ∈ rest.head?, property c = false) :
    Cursor.takeWhile property ⟨position, run ++ rest⟩ =
      (run, ⟨position + run.length, rest⟩) := by
  have stopped : rest.takeWhile property = [] ∧ rest.dropWhile property = rest := by
    cases rest with
    | nil => exact ⟨rfl, rfl⟩
    | cons c rest => simp [stops c rfl]
  simp only [Cursor.takeWhile, List.takeWhile_append_of_pos has, List.dropWhile_append_of_pos has,
    stopped.1, stopped.2, List.append_nil]

theorem scanFrom_of_ended {start : Cursor} (ended : (start.skipWhile isSpace).rest = []) :
    scanFrom start = .ok ⟨[], (start.skipWhile isSpace).position⟩ := by
  rw [scanFrom.eq_def]
  dsimp only
  split
  · rfl
  · rename_i ahead
    rw [ended] at ahead
    cases ahead

/-- Behind the spaces a token is read, and then what follows it. -/
theorem scanFrom_of_ahead {start : Cursor} {c : Char} {rest : Text}
    (ahead : (start.skipWhile isSpace).rest = c :: rest) :
    scanFrom start = (readToken (start.skipWhile isSpace).position c rest).bind
      fun (token, behind) =>
        (scanFrom behind).map (Scanned.behind [⟨token, (start.skipWhile isSpace).position⟩]) := by
  rw [scanFrom.eq_def]
  dsimp only
  split
  · rename_i ended
    rw [ahead] at ended
    cases ended
  · rename_i found
    rw [ahead, List.cons.injEq] at found
    rcases found with ⟨rfl, rfl⟩
    split
    · rename_i refused
      rw [refused]
      rfl
    · rename_i behind read
      rw [read]
      show _ = (scanFrom behind).map _
      cases scanFrom behind <;> rfl

theorem scanFrom_nil (position : Nat) : scanFrom ⟨position, []⟩ = .ok ⟨[], position⟩ :=
  scanFrom_of_ended rfl

/-- What is scanned up to the end of a text are its tokens. -/
theorem scan_eq_ok_of_scans {text : Text} {tokens : List (Placed Token)} {stop : Nat}
    (scans : Scans ⟨0, text⟩ tokens ⟨stop, []⟩) : scan text = .ok ⟨tokens, stop⟩ := by
  unfold Scans at scans
  rw [scan, Cursor.ofText, scans, scanFrom_nil]
  simp [Except.map, Scanned.behind]

theorem scans_space {c : Char} (space : isSpace c = true) (position : Nat) (rest : Text) :
    Scans ⟨position, c :: rest⟩ [] ⟨position + 1, rest⟩ := by
  have same : scanFrom ⟨position, c :: rest⟩ = scanFrom ⟨position + 1, rest⟩ := by
    rw [scanFrom.eq_def ⟨position, c :: rest⟩, scanFrom.eq_def ⟨position + 1, rest⟩]
    rw [Cursor.skipWhile_cons_of_has space]
  unfold Scans
  rw [same]
  cases scanFrom ⟨position + 1, rest⟩ <;> rfl

/-- The first token from a place on and the place behind it, unless nothing but spaces is left. -/
def firstToken (start : Cursor) : Except (Placed Fault) (Option (Placed Token × Cursor)) :=
  let first := start.skipWhile isSpace
  match first.rest with
  | [] => .ok none
  | c :: rest =>
    (readToken first.position c rest).map fun (token, behind) =>
      some (⟨token, first.position⟩, behind)

/-- Scanning takes the first token, and then what follows it. -/
theorem scanFrom_eq_firstToken (start : Cursor) :
    scanFrom start = (firstToken start).bind fun
      | none => .ok ⟨[], (start.skipWhile isSpace).position⟩
      | some (token, behind) => (scanFrom behind).map (Scanned.behind [token]) := by
  cases ahead : (start.skipWhile isSpace).rest with
  | nil =>
    rw [scanFrom_of_ended ahead, firstToken, ahead]
    rfl
  | cons c rest =>
    rw [scanFrom_of_ahead ahead, firstToken, ahead]
    dsimp only
    cases readToken (start.skipWhile isSpace).position c rest <;> rfl

theorem scans_of_firstToken {start behind : Cursor} {token : Placed Token}
    (first : firstToken start = .ok (some (token, behind))) : Scans start [token] behind := by
  unfold Scans
  rw [scanFrom_eq_firstToken, first]
  rfl

/-- A token is taken where it begins. -/
theorem firstToken_of_readToken {c : Char} {position : Nat} {rest : Text} {token : Token}
    {behind : Cursor} (noSpace : isSpace c = false)
    (read : readToken position c rest = .ok (token, behind)) :
    firstToken ⟨position, c :: rest⟩ = .ok (some (⟨token, position⟩, behind)) := by
  rw [firstToken, Cursor.skipWhile_cons noSpace]
  dsimp only
  rw [read]
  rfl

theorem scans_token {c : Char} {position : Nat} {rest : Text} {token : Token} {behind : Cursor}
    (noSpace : isSpace c = false) (read : readToken position c rest = .ok (token, behind)) :
    Scans ⟨position, c :: rest⟩ [⟨token, position⟩] behind :=
  scans_of_firstToken (firstToken_of_readToken noSpace read)

theorem scans_openParen (position : Nat) (rest : Text) :
    Scans ⟨position, '(' :: rest⟩ [⟨.openParen, position⟩] ⟨position + 1, rest⟩ :=
  scans_token (by decide) rfl

theorem scans_closeParen (position : Nat) (rest : Text) :
    Scans ⟨position, ')' :: rest⟩ [⟨.closeParen, position⟩] ⟨position + 1, rest⟩ :=
  scans_token (by decide) rfl

theorem scans_colon (position : Nat) (rest : Text) :
    Scans ⟨position, ':' :: rest⟩ [⟨.colon, position⟩] ⟨position + 1, rest⟩ :=
  scans_token (by decide) rfl

/-- A sign is one only in front of something that is no space. -/
theorem scans_plus {c : Char} (noSpace : isSpace c = false) (position : Nat) (rest : Text) :
    Scans ⟨position, '+' :: c :: rest⟩ [⟨.plus, position⟩] ⟨position + 1, c :: rest⟩ :=
  scans_token (by decide) (by simp [readToken, readOperator, noSpace])

theorem scans_minus {c : Char} (noSpace : isSpace c = false) (position : Nat) (rest : Text) :
    Scans ⟨position, '-' :: c :: rest⟩ [⟨.minus, position⟩] ⟨position + 1, c :: rest⟩ :=
  scans_token (by decide) (by simp [readToken, readOperator, noSpace])

/-! ## Words -/

/-- A word is an operator, a star, or itself with its wildcards. -/
theorem Token.ofWord_cases (word : Text) :
    Token.ofWord word ∈ [Token.and, .or, .not, .star] ∨ Token.ofWord word = .term word ∨
      (Token.ofWord word = .starred word ∧ wildcardUse (glyphs word) = .finalStar) ∨
      Token.ofWord word = .pattern word := by
  rw [Token.ofWord]
  split
  · exact Or.inl (by decide)
  split
  · exact Or.inl (by decide)
  split
  · exact Or.inl (by decide)
  split
  · exact Or.inl (by decide)
  cases use : wildcardUse (glyphs word) with
  | none => exact Or.inr (Or.inl rfl)
  | finalStar => exact Or.inr (Or.inr (Or.inl ⟨rfl, rfl⟩))
  | general => exact Or.inr (Or.inr (Or.inr rfl))

theorem Token.ofWord_ne {word : Text} {token : Token}
    (operator : token ∉ [Token.and, .or, .not, .star]) (term : token ≠ .term word)
    (starred : token ≠ .starred word) (pattern : token ≠ .pattern word) :
    Token.ofWord word ≠ token := by
  rintro rfl
  rcases Token.ofWord_cases word with isOperator | value | ⟨value, _⟩ | value
  · exact operator isOperator
  · exact term value
  · exact starred value
  · exact pattern value

/-- The text of a word that is no operator and no lone `*`. -/
def Token.word? : Token → Option Text
  | .term word | .starred word | .pattern word => some word
  | _ => none

theorem Token.eq_of_word?_ofWord {word other : Text} (same : (ofWord word).word? = some other) :
    other = word := by
  rcases Token.ofWord_cases word with operator | value | ⟨value, _⟩ | value
  · simp only [List.mem_cons, List.not_mem_nil, or_false] at operator
    rcases operator with value | value | value | value
    all_goals
      rw [value] at same
      cases same
  all_goals
    rw [value] at same
    exact (Option.some.inj same).symm

end AlarmQuery
