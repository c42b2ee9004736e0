import AlarmQuery.Token.Cursor
import AlarmQuery.Token.Fault

/-!
# Reading one token

Each kind of token is read by a function of its own, which starts behind the character that
announces the token.  The statements `reads_of_…` say that what a reader returns is what stands
in the text, and `length_lt_of_readToken` that no token is empty.
-/

namespace AlarmQuery

/-- The characters that separate tokens. -/
def isSpace (c : Char) : Bool :=
  c == ' ' || c == '\t' || c == '\n' || c == '\r' || c == '\u3000'

/-- The characters that never stand in a word unless they are escaped, apart from `-` and `+`,
which may stand inside one. -/
def punctuation : List Char :=
  ['+', '-', '!', '(', ')', ':', '^', '[', ']', '"', '{', '}', '~', '*', '?', '\\', '/']

/-- Whether a word may begin with this character as it is. -/
def isTermStart (c : Char) : Bool := !isSpace c && !punctuation.contains c

/-- Whether this character may stand inside a word as it is. -/
def isTermChar (c : Char) : Bool := isTermStart c || c == '-' || c == '+'

/-- Whether this character may stand in a bound of a range that is not quoted. -/
def isBoundChar (c : Char) : Bool := !isSpace c && c != ']' && c != '}'

/-- Reads digits, with a point and more digits behind them if there are any. -/
def readDecimal (start : Cursor) : Text × Cursor :=
  let (whole, behind) := start.takeWhile Char.isDigit
  match behind.rest with
  | '.' :: rest =>
    let (fraction, stop) := Cursor.takeWhile Char.isDigit ⟨behind.position + 1, rest⟩
    if whole.isEmpty || fraction.isEmpty then (whole, behind) else (whole ++ '.' :: fraction, stop)
  | _ => (whole, behind)

/-- Reads up to the next delimiter that is not escaped.  The result is what stands before the
delimiter, escapes kept, and what stands behind it. -/
def readDelimited (delimiter : Char) : Text → Option (Text × Text)
  | [] => none
  | c :: rest =>
    if c = delimiter then some ([], rest)
    else if c = '\\' then
      match rest with
      | [] => none
      | escaped :: rest =>
        (readDelimited delimiter rest).map fun (contents, behind) =>
          ('\\' :: escaped :: contents, behind)
    else (readDelimited delimiter rest).map fun (contents, behind) => (c :: contents, behind)

/-- Reads a text between delimiters from behind the first one, which stands at `opening`. -/
def readEnclosed (what : Enclosed) (delimiter : Char) (opening : Nat) (rest : Text) :
    Except (Placed Fault) (Text × Cursor) :=
  match readDelimited delimiter rest with
  | none => .error ⟨.unterminated what, opening⟩
  | some (contents, behind) => .ok (contents, ⟨opening + contents.length + 2, behind⟩)

/-- Reads the characters of a word that begins at `position`, escapes kept. -/
def readLetters (position : Nat) : Text → Except (Placed Fault) (Text × Text)
  | [] => .ok ([], [])
  | c :: rest =>
    if c = '\\' then
      match rest with
      | [] => .error ⟨.escape .trailing, position⟩
      | escaped :: rest =>
        (readLetters (position + 2) rest).map fun (word, behind) =>
          ('\\' :: escaped :: word, behind)
    else if isWildcard c || isTermChar c then
      (readLetters (position + 1) rest).map fun (word, behind) => (c :: word, behind)
    else .ok ([], c :: rest)

/-- Reads a word from its first character, which stands at `position`. -/
def readWord (position : Nat) (c : Char) (rest : Text) :
    Except (Placed Fault) (Token × Cursor) :=
  match readLetters position (c :: rest) with
  | .error fault => .error fault
  | .ok (word, behind) =>
    if word.isEmpty then .error ⟨.unexpectedCharacter c, position⟩
    else .ok (.ofWord word, ⟨position + word.length, behind⟩)

/-- Reads a bound of the range that opens at `opening`. -/
def readBound (opening : Nat) (start : Cursor) : Except (Placed Fault) (Bound × Cursor) :=
  match start.rest with
  | [] => .error ⟨.unterminatedRange, opening⟩
  | c :: rest =>
    if c = '"' then
      (readEnclosed .bound '"' start.position rest).map fun (contents, stop) =>
        (⟨contents, true, start.position⟩, stop)
    else
      let (text, stop) := start.takeWhile isBoundChar
      if text.isEmpty then .error ⟨.emptyBound, start.position⟩
      else .ok (⟨text, false, start.position⟩, stop)

/-- Reads a range from behind its opening bracket, which stands at `opening`. -/
def readRange (lowerInclusive : Bool) (opening : Nat) (rest : Text) :
    Except (Placed Fault) (Token × Cursor) := do
  let (lower, behindLower) ← readBound opening (Cursor.skipWhile isSpace ⟨opening + 1, rest⟩)
  let (separator, behindSeparator) ← readBound opening (behindLower.skipWhile isSpace)
  if separator.quoted ∨ separator.text ≠ ['T', 'O'] then
    .error ⟨.missingTo separator.text, separator.position⟩
  else
    let (upper, behindUpper) ← readBound opening (behindSeparator.skipWhile isSpace)
    let closing := behindUpper.skipWhile isSpace
    match closing.rest with
    | ']' :: rest => .ok (.range lower upper lowerInclusive true, ⟨closing.position + 1, rest⟩)
    | '}' :: rest => .ok (.range lower upper lowerInclusive false, ⟨closing.position + 1, rest⟩)
    | _ => .error ⟨.unclosedRange, closing.position⟩

/-- Reads an operator character from behind it.  With a space behind it, it is a term. -/
def readOperator (operator : Char) (token : Token) (start : Cursor) : Token × Cursor :=
  match start.rest with
  | [] => (token, start)
  | c :: rest =>
    if isSpace c then (.bareOperator operator, ⟨start.position + 1, rest⟩) else (token, start)

/-- Reads a token from its first character, which is no space and stands at `position`. -/
def readToken (position : Nat) (c : Char) (rest : Text) :
    Except (Placed Fault) (Token × Cursor) :=
  let behind : Cursor := ⟨position + 1, rest⟩
  match c with
  | '+' => .ok (readOperator '+' .plus behind)
  | '-' => .ok (readOperator '-' .minus behind)
  | '!' => .ok (readOperator '!' .not behind)
  | '(' => .ok (.openParen, behind)
  | ')' => .ok (.closeParen, behind)
  | ':' => .ok (.colon, behind)
  | '^' =>
    let (number, stop) := readDecimal behind
    if number.isEmpty then .error ⟨.missingNumber, stop.position⟩ else .ok (.boost number, stop)
  | '~' =>
    let (number, stop) := readDecimal behind
    .ok (.slop number, stop)
  | '"' =>
    (readEnclosed .string '"' position rest).map fun (contents, stop) => (.quoted contents, stop)
  | '/' =>
    (readEnclosed .regexp '/' position rest).map fun (contents, stop) => (.regexp contents, stop)
  | '[' => readRange true position rest
  | '{' => readRange false position rest
  | ']' => .error ⟨.unexpectedCharacter ']', position⟩
  | '}' => .error ⟨.unexpectedCharacter '}', position⟩
  | _ => readWord position c rest

/-! ## What a reader leaves behind it -/

theorem reads_readDecimal (start : Cursor) :
    start.Reads (readDecimal start).1 (readDecimal start).2 := by
  have whole := start.reads_takeWhile Char.isDigit
  unfold readDecimal
  generalize start.takeWhile Char.isDigit = taken at whole
  obtain ⟨digits, behind⟩ := taken
  dsimp only at whole ⊢
  split
  · rename_i rest ahead
    have point : behind.Reads ['.'] ⟨behind.position + 1, rest⟩ := ⟨ahead, rfl⟩
    have fraction := Cursor.reads_takeWhile Char.isDigit ⟨behind.position + 1, rest⟩
    split
    · exact whole
    · exact whole.trans (point.trans fraction)
  · exact whole

theorem eq_of_readDelimited {delimiter : Char} {text contents behind : Text}
    (read : readDelimited delimiter text = some (contents, behind)) :
    text = contents ++ delimiter :: behind := by
  fun_induction readDelimited delimiter text generalizing contents behind with
  | case1 => simp at read
  | case2 rest => simp_all
  | case3 => simp at read
  | case4 escaped rest _ ih =>
    obtain ⟨⟨inner, after⟩, found, same⟩ := Option.map_eq_some_iff.1 read
    simp only [Prod.mk.injEq] at same
    obtain ⟨rfl, rfl⟩ := same
    simp [ih found]
  | case5 c rest _ _ ih =>
    obtain ⟨⟨inner, after⟩, found, same⟩ := Option.map_eq_some_iff.1 read
    simp only [Prod.mk.injEq] at same
    obtain ⟨rfl, rfl⟩ := same
    simp [ih found]

theorem reads_of_readEnclosed {what : Enclosed} {delimiter : Char} {opening : Nat}
    {rest contents : Text} {stop : Cursor}
    (read : readEnclosed what delimiter opening rest = .ok (contents, stop)) :
    Cursor.Reads ⟨opening, delimiter :: rest⟩ (delimiter :: contents ++ [delimiter]) stop := by
  unfold readEnclosed at read
  split at read
  · simp at read
  · rename_i found
    simp only [Except.ok.injEq, Prod.mk.injEq] at read
    obtain ⟨rfl, rfl⟩ := read
    exact ⟨by simp [eq_of_readDelimited found], by simp; omega⟩

theorem eq_of_readLetters {position : Nat} {text word behind : Text}
    (read : readLetters position text = .ok (word, behind)) : text = word ++ behind := by
  fun_induction readLetters position text generalizing word behind with
  | case1 => simp_all
  | case2 => simp at read
  | case3 position escaped rest ih =>
    cases found : readLetters (position + 2) rest with
    | error => simp [found, Except.map] at read
    | ok result =>
      simp only [found, Except.map, Except.ok.injEq, Prod.mk.injEq] at read
      obtain ⟨rfl, rfl⟩ := read
      simp [ih found]
  | case4 position c rest _ _ ih =>
    cases found : readLetters (position + 1) rest with
    | error => simp [found, Except.map] at read
    | ok result =>
      simp only [found, Except.map, Except.ok.injEq, Prod.mk.injEq] at read
      obtain ⟨rfl, rfl⟩ := read
      simp [ih found]
  | case5 => simp_all

/-- A word is read in full, and it has a character. -/
theorem reads_of_readWord {position : Nat} {c : Char} {rest : Text} {token : Token}
    {stop : Cursor} (read : readWord position c rest = .ok (token, stop)) :
    ∃ word, word ≠ [] ∧ token = .ofWord word ∧ Cursor.Reads ⟨position, c :: rest⟩ word stop := by
  unfold readWord at read
  split at read
  · simp at read
  · rename_i word behind found
    split at read
    · simp at read
    · simp only [Except.ok.injEq, Prod.mk.injEq] at read
      obtain ⟨rfl, rfl⟩ := read
      exact ⟨word, by simp_all, rfl, eq_of_readLetters found, rfl⟩

/-- The stretch of text that a bound takes. -/
def Bound.source (bound : Bound) : Text :=
  if bound.quoted then '"' :: bound.text ++ ['"'] else bound.text

theorem reads_of_readBound {opening : Nat} {start stop : Cursor} {bound : Bound}
    (read : readBound opening start = .ok (bound, stop)) :
    start.Reads bound.source stop ∧ bound.position = start.position := by
  obtain ⟨position, text⟩ := start
  cases text with
  | nil => simp [readBound] at read
  | cons c rest =>
    by_cases quote : c = '"'
    · subst quote
      cases found : readEnclosed .bound '"' position rest with
      | error => simp [readBound, found, Except.map] at read
      | ok result =>
        simp only [readBound, found, Except.map, if_true, Except.ok.injEq, Prod.mk.injEq] at read
        obtain ⟨rfl, rfl⟩ := read
        exact ⟨reads_of_readEnclosed found, rfl⟩
    · have taken := Cursor.reads_takeWhile isBoundChar ⟨position, c :: rest⟩
      simp only [readBound, quote, if_false] at read
      split at read
      · simp at read
      · simp only [Except.ok.injEq, Prod.mk.injEq] at read
        obtain ⟨rfl, rfl⟩ := read
        exact ⟨taken, rfl⟩

/-- A range is read from its first bound to its closing bracket. -/
theorem reads_of_readRange {lowerInclusive : Bool} {opening : Nat} {rest : Text} {token : Token}
    {stop : Cursor} (read : readRange lowerInclusive opening rest = .ok (token, stop)) :
    ∃ text, Cursor.Reads ⟨opening + 1, rest⟩ text stop := by
  unfold readRange at read
  have first := Cursor.reads_skipWhile isSpace ⟨opening + 1, rest⟩
  cases lowerRead : readBound opening (Cursor.skipWhile isSpace ⟨opening + 1, rest⟩) with
  | error => simp [lowerRead, bind, Except.bind] at read
  | ok lower =>
    simp only [lowerRead, bind, Except.bind] at read
    cases separatorRead : readBound opening (lower.2.skipWhile isSpace) with
    | error => simp [separatorRead] at read
    | ok separator =>
      simp only [separatorRead] at read
      split at read
      · simp at read
      · cases upperRead : readBound opening (separator.2.skipWhile isSpace) with
        | error => simp [upperRead] at read
        | ok upper =>
          have closing :=
            ((((((first.trans (reads_of_readBound lowerRead).1).trans
              (lower.2.reads_skipWhile isSpace)).trans (reads_of_readBound separatorRead).1).trans
              (separator.2.reads_skipWhile isSpace)).trans (reads_of_readBound upperRead).1).trans
              (upper.2.reads_skipWhile isSpace))
          simp only [upperRead] at read
          split at read
          · rename_i ahead
            simp only [Except.ok.injEq, Prod.mk.injEq] at read
            obtain ⟨_, rfl⟩ := read
            exact ⟨_, closing.trans (show Cursor.Reads _ [']'] _ from ⟨ahead, rfl⟩)⟩
          · rename_i ahead
            simp only [Except.ok.injEq, Prod.mk.injEq] at read
            obtain ⟨_, rfl⟩ := read
            exact ⟨_, closing.trans (show Cursor.Reads _ ['}'] _ from ⟨ahead, rfl⟩)⟩
          · simp at read

theorem reads_readOperator (operator : Char) (token : Token) (start : Cursor) :
    ∃ text, start.Reads text (readOperator operator token start).2 := by
  unfold readOperator
  split
  · exact ⟨[], .refl start⟩
  · rename_i c rest ahead
    split
    · exact ⟨[c], ahead, rfl⟩
    · exact ⟨[], .refl start⟩

/-- Every token has a character. -/
theorem length_lt_of_readToken {position : Nat} {c : Char} {rest : Text} {token : Token}
    {stop : Cursor} (read : readToken position c rest = .ok (token, stop)) :
    stop.rest.length < (c :: rest).length := by
  have behind {text : Text} (reads : Cursor.Reads ⟨position + 1, rest⟩ text stop) :
      stop.rest.length < (c :: rest).length := by
    have := reads.length_rest
    simp only [List.length_cons] at this ⊢
    omega
  have operator (kind : Token) (sign : Char)
      (found : readOperator sign kind ⟨position + 1, rest⟩ = (token, stop)) :
      stop.rest.length < (c :: rest).length := by
    obtain ⟨text, reads⟩ := reads_readOperator sign kind ⟨position + 1, rest⟩
    rw [found] at reads
    exact behind reads
  have enclosed {what : Enclosed} {delimiter : Char} {build : Text → Token}
      (found : ((readEnclosed what delimiter position rest).map
        fun (contents, stop) => (build contents, stop)) = .ok (token, stop)) :
      stop.rest.length < (c :: rest).length := by
    cases inner : readEnclosed what delimiter position rest with
    | error => simp [inner, Except.map] at found
    | ok result =>
      simp only [inner, Except.map, Except.ok.injEq, Prod.mk.injEq] at found
      obtain ⟨_, rfl⟩ := found
      have := (reads_of_readEnclosed inner).length_rest
      simp only [List.length_cons, List.length_append] at this ⊢
      omega
  have punctuation {kind : Token}
      (found : (.ok (kind, ⟨position + 1, rest⟩) : Except (Placed Fault) (Token × Cursor)) =
        .ok (token, stop)) : stop.rest.length < (c :: rest).length := by
    simp only [Except.ok.injEq, Prod.mk.injEq] at found
    exact behind (show Cursor.Reads _ [] _ from found.2 ▸ Cursor.Reads.refl _)
  have decimal := reads_readDecimal ⟨position + 1, rest⟩
  unfold readToken at read
  dsimp only at read
  split at read
  · exact operator _ _ (Except.ok.inj read)
  · exact operator _ _ (Except.ok.inj read)
  · exact operator _ _ (Except.ok.inj read)
  · exact punctuation read
  · exact punctuation read
  · exact punctuation read
  · split at read
    · simp at read
    · simp only [Except.ok.injEq, Prod.mk.injEq] at read
      exact behind (read.2 ▸ decimal)
  · simp only [Except.ok.injEq, Prod.mk.injEq] at read
    exact behind (read.2 ▸ decimal)
  · exact enclosed read
  · exact enclosed read
  · exact behind (reads_of_readRange read).choose_spec
  · exact behind (reads_of_readRange read).choose_spec
  · simp at read
  · simp at read
  · obtain ⟨word, nonempty, _, reads⟩ := reads_of_readWord read
    have : (c :: rest).length = word.length + stop.rest.length := reads.length_rest
    have := List.length_pos_iff.2 nonempty
    omega

end AlarmQuery
