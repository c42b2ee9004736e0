import AlarmQuery.Proofs.Token.Source
import AlarmQuery.Proofs.Token.Word

/-!
# Scanning a part of a text

What is scanned does not depend on where it stands, but for the positions that are counted from the
beginning.  It does not depend on what follows either, as long as that belongs to no word and does
not make a term of an operator character at the end.
-/

namespace AlarmQuery

/-! ## Further behind -/

/-- The same place with more characters before it. -/
def Cursor.shift (offset : Nat) (place : Cursor) : Cursor := ⟨place.position + offset, place.rest⟩

/-- The same bound further behind. -/
def Bound.shift (offset : Nat) (bound : Bound) : Bound :=
  { bound with position := bound.position + offset }

/-- The same token further behind.  Only bounds have positions of their own. -/
def Token.shift (offset : Nat) : Token → Token
  | .range lower upper lowerInclusive upperInclusive =>
    .range (lower.shift offset) (upper.shift offset) lowerInclusive upperInclusive
  | token => token

/-- The same token further behind, and its position with it. -/
def Placed.shift (offset : Nat) (token : Placed Token) : Placed Token :=
  ⟨token.value.shift offset, token.position + offset⟩

/-- The same tokens further behind. -/
def Scanned.shift (offset : Nat) (scanned : Scanned) : Scanned :=
  ⟨scanned.tokens.map (Placed.shift offset), scanned.stop + offset⟩

/-- What an outcome is when everything stands further behind. -/
def shifted {α : Type} (offset : Nat) (change : α → α) :
    Except (Placed Fault) α → Except (Placed Fault) α
  | .error fault => .error ⟨fault.value, fault.position + offset⟩
  | .ok value => .ok (change value)

section

variable (offset : Nat)

theorem Cursor.takeWhile_shift (property : Char → Bool) (start : Cursor) :
    (start.shift offset).takeWhile property =
      ((start.takeWhile property).1, (start.takeWhile property).2.shift offset) := by
  simp only [Cursor.takeWhile, Cursor.shift, Nat.add_right_comm]

theorem Cursor.skipWhile_shift (property : Char → Bool) (start : Cursor) :
    (start.shift offset).skipWhile property = (start.skipWhile property).shift offset := by
  rw [Cursor.skipWhile, Cursor.takeWhile_shift, Cursor.skipWhile]

theorem readDecimal_shift (start : Cursor) :
    readDecimal (start.shift offset) =
      ((readDecimal start).1, (readDecimal start).2.shift offset) := by
  unfold readDecimal
  rw [Cursor.takeWhile_shift]
  generalize start.takeWhile Char.isDigit = taken
  rcases taken with ⟨digits, position, rest⟩
  simp only [Cursor.shift]
  split
  · rename_i following
    rw [show position + offset + 1 = position + 1 + offset by omega]
    have fraction := Cursor.takeWhile_shift offset Char.isDigit ⟨position + 1, following⟩
    simp only [Cursor.shift] at fraction
    simp only [fraction]
    split <;> rfl
  · rfl

theorem readEnclosed_shift (what : Enclosed) (delimiter : Char) (opening : Nat) (rest : Text) :
    readEnclosed what delimiter (opening + offset) rest =
      shifted offset (Prod.map id (Cursor.shift offset))
        (readEnclosed what delimiter opening rest) := by
  rw [readEnclosed, readEnclosed]
  cases readDelimited delimiter rest with
  | none => rfl
  | some result =>
    simp only [shifted, Prod.map, Cursor.shift, id, Except.ok.injEq, Prod.mk.injEq,
      Cursor.mk.injEq, true_and, and_true]
    omega

/-- Letter by letter, as they are read. -/
theorem readLetters_shift (position : Nat) (text : Text) :
    readLetters (position + offset) text = shifted offset id (readLetters position text) := by
  have mapped {change : Text × Text → Text × Text} (result : Except (Placed Fault) (Text × Text)) :
      (shifted offset id result).map change = shifted offset id (result.map change) := by
    cases result <;> rfl
  fun_induction readLetters position text with
  | case1 => rfl
  | case2 => rfl
  | case3 position escaped rest ih =>
    rw [readLetters, if_pos rfl]
    dsimp only
    rw [Nat.add_right_comm, ih, mapped]
  | case4 position c rest bare stands ih =>
    rw [readLetters.eq_def]
    dsimp only
    rw [if_neg bare, if_pos stands, Nat.add_right_comm, ih, mapped]
  | case5 position c rest bare stops =>
    rw [readLetters.eq_def]
    dsimp only
    rw [if_neg bare, if_neg stops]
    rfl

/-- A token and the place behind it, further behind. -/
def shiftToken (result : Token × Cursor) : Token × Cursor :=
  (result.1.shift offset, result.2.shift offset)

theorem Token.shift_eq_self {token : Token}
    (noRange : ∀ lower upper lowerInclusive upperInclusive,
      token ≠ .range lower upper lowerInclusive upperInclusive) : token.shift offset = token := by
  cases token with
  | range => exact absurd rfl (noRange _ _ _ _)
  | _ => rfl

@[simp]
theorem Token.shift_ofWord (word : Text) : (Token.ofWord word).shift offset = .ofWord word := by
  refine Token.shift_eq_self offset fun lower upper lowerInclusive upperInclusive => ?_
  exact Token.ofWord_ne (by simp) Token.noConfusion Token.noConfusion Token.noConfusion

theorem readWord_shift (position : Nat) (c : Char) (rest : Text) :
    readWord (position + offset) c rest =
      shifted offset (shiftToken offset) (readWord position c rest) := by
  rw [readWord, readWord, readLetters_shift]
  cases readLetters position (c :: rest) with
  | error fault => rfl
  | ok result =>
    simp only [shifted, id]
    split
    · rfl
    · simp only [shiftToken, Token.shift_ofWord, Cursor.shift, Nat.add_right_comm]

theorem readBound_shift (opening : Nat) (start : Cursor) :
    readBound (opening + offset) (start.shift offset) =
      shifted offset (Prod.map (Bound.shift offset) (Cursor.shift offset))
        (readBound opening start) := by
  rcases start with ⟨position, rest⟩
  cases rest with
  | nil => rfl
  | cons c rest =>
    by_cases quote : c = '"'
    · simp only [readBound, Cursor.shift, if_pos quote, readEnclosed_shift]
      cases readEnclosed .bound '"' position rest <;> rfl
    · have taken := Cursor.takeWhile_shift offset isBoundChar ⟨position, c :: rest⟩
      simp only [Cursor.shift] at taken
      simp only [readBound, Cursor.shift, if_neg quote, taken]
      split <;> rfl

theorem readRange_shift (lowerInclusive : Bool) (opening : Nat) (rest : Text) :
    readRange lowerInclusive (opening + offset) rest =
      shifted offset (shiftToken offset) (readRange lowerInclusive opening rest) := by
  have start : (⟨opening + offset + 1, rest⟩ : Cursor) = Cursor.shift offset ⟨opening + 1, rest⟩ :=
    congrArg (Cursor.mk · rest) (Nat.add_right_comm opening offset 1)
  rw [readRange, readRange, start, Cursor.skipWhile_shift, readBound_shift]
  cases readBound opening (Cursor.skipWhile isSpace ⟨opening + 1, rest⟩) with
  | error => rfl
  | ok lower =>
    simp only [shifted, bind, Except.bind, Prod.map]
    rw [Cursor.skipWhile_shift, readBound_shift]
    cases readBound opening (lower.2.skipWhile isSpace) with
    | error => rfl
    | ok separator =>
      simp only [shifted, Prod.map, Bound.shift]
      split
      · rfl
      · rw [Cursor.skipWhile_shift, readBound_shift]
        cases readBound opening (separator.2.skipWhile isSpace) with
        | error => rfl
        | ok upper =>
          simp only [shifted, Prod.map]
          rw [Cursor.skipWhile_shift]
          generalize upper.2.skipWhile isSpace = closing
          rcases closing with ⟨position, ahead⟩
          simp only [Cursor.shift]
          split
          · simp only [shiftToken, Token.shift, Cursor.shift, Bound.shift, Nat.add_right_comm]
          · simp only [shiftToken, Token.shift, Cursor.shift, Bound.shift, Nat.add_right_comm]
          · rfl

theorem readOperator_shift (operator : Char) {token : Token} (same : token.shift offset = token)
    (start : Cursor) :
    readOperator operator token (start.shift offset) =
      shiftToken offset (readOperator operator token start) := by
  rcases start with ⟨position, rest⟩
  cases rest with
  | nil => simp only [readOperator, shiftToken, Cursor.shift, same]
  | cons c rest =>
    simp only [readOperator, Cursor.shift]
    split
    · simp only [shiftToken, Token.shift, Cursor.shift, Nat.add_right_comm]
    · simp only [shiftToken, Cursor.shift, same]

theorem readToken_shift (position : Nat) (c : Char) (rest : Text) :
    readToken (position + offset) c rest =
      shifted offset (shiftToken offset) (readToken position c rest) := by
  have start : (⟨position + offset + 1, rest⟩ : Cursor) =
      Cursor.shift offset ⟨position + 1, rest⟩ :=
    congrArg (Cursor.mk · rest) (Nat.add_right_comm position offset 1)
  unfold readToken
  simp only [start]
  split
  · exact congrArg Except.ok (readOperator_shift offset '+' rfl _)
  · exact congrArg Except.ok (readOperator_shift offset '-' rfl _)
  · exact congrArg Except.ok (readOperator_shift offset '!' rfl _)
  · rfl
  · rfl
  · rfl
  · rw [readDecimal_shift]
    dsimp only
    split <;> rfl
  · rw [readDecimal_shift]
    rfl
  · rw [readEnclosed_shift]
    cases readEnclosed .string '"' position rest <;> rfl
  · rw [readEnclosed_shift]
    cases readEnclosed .regexp '/' position rest <;> rfl
  · exact readRange_shift offset true position rest
  · exact readRange_shift offset false position rest
  · rfl
  · rfl
  · exact readWord_shift offset position c rest

/-- From any place on, by induction on what is left of the text. -/
theorem scanFrom_shift (start : Cursor) :
    scanFrom (start.shift offset) = shifted offset (Scanned.shift offset) (scanFrom start) := by
  have skipped (start : Cursor) := Cursor.skipWhile_shift offset isSpace start
  have step {start : Cursor} {c : Char} {rest : Text}
      (ahead : (start.skipWhile isSpace).rest = c :: rest) :
      scanFrom (start.shift offset) =
        (shifted offset (shiftToken offset)
          (readToken (start.skipWhile isSpace).position c rest)).bind fun result =>
            (scanFrom result.2).map
              (Scanned.behind [⟨result.1, (start.skipWhile isSpace).position + offset⟩]) := by
    rw [scanFrom_of_ahead (by rw [skipped]; exact ahead), skipped, ← readToken_shift]
    rfl
  fun_induction scanFrom start with
  | case1 start first ended =>
    rw [scanFrom_of_ended (by rw [skipped]; exact ended), skipped]
    rfl
  | case2 start first c rest ahead fault read =>
    rw [step ahead, read]
    rfl
  | case3 start first c rest ahead token behind read fault failed ih =>
    rw [step ahead, read]
    show (scanFrom (behind.shift offset)).map _ = _
    rw [ih, failed]
    rfl
  | case4 start first c rest ahead token behind read others found ih =>
    rw [step ahead, read]
    show (scanFrom (behind.shift offset)).map _ = _
    rw [ih, found]
    rfl

/-- What is scanned stays the same further behind. -/
theorem Scans.shift {start stop : Cursor} {tokens : List (Placed Token)}
    (scans : Scans start tokens stop) :
    Scans (start.shift offset) (tokens.map (Placed.shift offset)) (stop.shift offset) := by
  unfold Scans at scans ⊢
  rw [scanFrom_shift, scanFrom_shift, scans]
  cases scanFrom stop with
  | error fault => rfl
  | ok scanned => simp [Except.map, shifted, Scanned.shift, Scanned.behind]

end

/-! ## In front of more -/

theorem Cursor.skipWhile_stops {property : Char → Bool} {c : Char} {rest : Text} (start : Cursor)
    (ahead : (start.skipWhile property).rest = c :: rest) : property c = false := by
  have stops := List.head?_dropWhile_not property start.rest
  rw [show start.rest.dropWhile property = c :: rest from ahead] at stops
  simpa using stops

/-- The same place with more characters at the end of the text. -/
def Cursor.extend (more : Text) (place : Cursor) : Cursor := ⟨place.position, place.rest ++ more⟩

/-- The last thing that is scanned is an operator character. -/
def Scanned.EndsInSign (scanned : Scanned) : Prop :=
  ∃ last ∈ scanned.tokens.getLast?, last.value ∈ [.plus, .minus, .not] ∧
    last.position + 1 = scanned.stop

section

variable {more : Text}

theorem EndsWord.append {rest : Text} (one : EndsWord rest) (two : EndsWord more) :
    EndsWord (rest ++ more) := by
  cases rest with
  | nil => exact two
  | cons c rest => exact one

theorem Cursor.takeWhile_extend {property : Char → Bool} {start : Cursor}
    (stops : (start.skipWhile property).rest = [] → ∀ c ∈ more.head?, property c = false) :
    (start.extend more).takeWhile property =
      ((start.takeWhile property).1, (start.takeWhile property).2.extend more) := by
  rcases start with ⟨position, rest⟩
  have split : (rest ++ more).takeWhile property = rest.takeWhile property ∧
      (rest ++ more).dropWhile property = rest.dropWhile property ++ more := by
    replace stops : rest.dropWhile property = [] → ∀ c ∈ more.head?, property c = false := stops
    induction rest with
    | nil =>
      cases more with
      | nil => exact ⟨rfl, rfl⟩
      | cons c more => simp [stops rfl c rfl]
    | cons c rest ih =>
      by_cases has : property c = true
      · rw [List.dropWhile_cons_of_pos has] at stops
        simp [has, ih stops]
      · simp [has]
  simp only [Cursor.takeWhile, Cursor.extend, split.1, split.2]

theorem Cursor.skipWhile_extend {property : Char → Bool} {start : Cursor}
    (stops : (start.skipWhile property).rest = [] → ∀ c ∈ more.head?, property c = false) :
    (start.extend more).skipWhile property = (start.skipWhile property).extend more :=
  congrArg Prod.snd (takeWhile_extend stops)

/-- The characters of a number belong to words. -/
theorem EndsWord.ne_decimal (ends : EndsWord more) :
    ∀ c ∈ more.head?, c.isDigit = false ∧ c ≠ '.' := by
  intro c first
  have noDecimal : ∀ c ∈ [' ', '\t', '\n', '\r', '\u3000'] ++ wordEnds,
      c.isDigit = false ∧ c ≠ '.' :=
    List.all_iff_forall_prop.1 (by decide)
  exact holds_of_wordEnd noDecimal (endsWord_iff.1 ends c first)

theorem readDecimal_extend (start : Cursor) (ends : EndsWord more) :
    readDecimal (start.extend more) =
      ((readDecimal start).1, (readDecimal start).2.extend more) := by
  have noDigit : ∀ c ∈ more.head?, c.isDigit = false := fun c first => (ends.ne_decimal c first).1
  unfold readDecimal
  rw [Cursor.takeWhile_extend fun _ => noDigit]
  generalize start.takeWhile Char.isDigit = taken
  rcases taken with ⟨digits, position, rest⟩
  cases rest with
  | nil =>
    simp only [Cursor.extend, List.nil_append]
    split
    · exact absurd rfl (ends.ne_decimal '.' rfl).2
    · rfl
  | cons c rest =>
    simp only [Cursor.extend, List.cons_append]
    by_cases point : c = '.'
    · subst point
      have fraction : Cursor.takeWhile Char.isDigit (Cursor.extend more ⟨position + 1, rest⟩) = _ :=
        Cursor.takeWhile_extend fun _ => noDigit
      simp only [Cursor.extend] at fraction
      simp only [fraction]
      split <;> rfl
    · split
      · rename_i impossible
        exact absurd (List.cons.inj impossible).1 point
      · split
        · rename_i impossible
          exact absurd (List.cons.inj impossible).1 point
        · rfl

theorem readEnclosed_extend {what : Enclosed} {delimiter : Char} (noBackslash : delimiter ≠ '\\')
    {opening : Nat} {rest contents : Text} {stop : Cursor}
    (read : readEnclosed what delimiter opening rest = .ok (contents, stop)) :
    readEnclosed what delimiter opening (rest ++ more) = .ok (contents, stop.extend more) := by
  rw [readEnclosed] at read
  split at read
  · cases read
  · rename_i behind found
    cases read
    rcases (readDelimited_eq_some_iff noBackslash).1 found with ⟨rfl, inside⟩
    have further : readDelimited delimiter (contents ++ delimiter :: behind ++ more) =
        some (contents, behind ++ more) :=
      (readDelimited_eq_some_iff noBackslash).2 ⟨by simp, inside⟩
    rw [readEnclosed, further]
    rfl

theorem readWord_extend {position : Nat} {c : Char} {rest : Text} {token : Token} {stop : Cursor}
    (read : readWord position c rest = .ok (token, stop)) (ends : EndsWord more) :
    readWord position c (rest ++ more) = .ok (token, stop.extend more) := by
  rw [readWord] at read
  split at read
  · cases read
  · rename_i word behind found
    split at read
    · cases read
    · rename_i nonempty
      cases read
      rcases readLetters_eq_ok_iff.1 found with ⟨split, stops, letters⟩
      have further : readLetters position (c :: (rest ++ more)) = .ok (word, behind ++ more) := by
        refine readLetters_eq_ok_iff.2 ⟨?_, stops.append ends, letters⟩
        rw [← List.cons_append, split, List.append_assoc]
      simp only [readWord, further, if_neg nonempty]
      rfl

theorem readBound_extend {opening : Nat} {start stop : Cursor} {bound : Bound}
    (read : readBound opening start = .ok (bound, stop)) (followed : stop.rest ≠ []) :
    readBound opening (start.extend more) = .ok (bound, stop.extend more) := by
  rcases start with ⟨position, rest⟩
  cases rest with
  | nil => cases read
  | cons c rest =>
    by_cases quote : c = '"'
    · simp only [readBound, if_pos quote] at read
      rcases exists_of_map_eq_ok read with ⟨⟨contents, behind⟩, found, same⟩
      cases same
      simp only [readBound, Cursor.extend, List.cons_append, if_pos quote,
        readEnclosed_extend (by decide) found]
      rfl
    · simp only [readBound, if_neg quote] at read
      split at read
      · cases read
      · rename_i nonempty
        cases read
        have taken : Cursor.takeWhile isBoundChar (Cursor.extend more ⟨position, c :: rest⟩) = _ :=
          Cursor.takeWhile_extend fun ended => absurd ended followed
        simp only [Cursor.extend, List.cons_append] at taken
        simp only [readBound, Cursor.extend, List.cons_append, if_neg quote, taken, if_neg nonempty]

/-- A reader of bounds needs something to read. -/
theorem rest_ne_nil_of_readBound {opening : Nat} {start : Cursor} {result : Bound × Cursor}
    (read : readBound opening start = .ok result) : start.rest ≠ [] := by
  intro ended
  rw [readBound, ended] at read
  cases read

theorem readRange_extend {lowerInclusive : Bool} {opening : Nat} {rest : Text} {token : Token}
    {stop : Cursor} (read : readRange lowerInclusive opening rest = .ok (token, stop)) :
    readRange lowerInclusive opening (rest ++ more) = .ok (token, stop.extend more) := by
  rcases exists_of_readRange read with
    ⟨lower, separator, upper, upperInclusive, lowerRead, separatorRead, isTo, upperRead, closes,
      rfl⟩
  have skipped {start : Cursor} (followed : (start.skipWhile isSpace).rest ≠ []) :
      (start.extend more).skipWhile isSpace = (start.skipWhile isSpace).extend more :=
    Cursor.skipWhile_extend fun ended => absurd ended followed
  have behind {start : Cursor} (followed : (start.skipWhile isSpace).rest ≠ []) :
      start.rest ≠ [] := by
    intro ended
    rw [Cursor.skipWhile, Cursor.takeWhile, ended] at followed
    exact followed rfl
  -- whatever is read of a range, something follows it
  have further {start after : Cursor} {bound : Bound}
      (found : readBound opening (start.skipWhile isSpace) = .ok (bound, after))
      (followed : (after.skipWhile isSpace).rest ≠ []) :
      readBound opening ((start.extend more).skipWhile isSpace) =
        .ok (bound, after.extend more) := by
    rw [skipped (rest_ne_nil_of_readBound found)]
    exact readBound_extend found (behind followed)
  have beforeClosing : (upper.2.skipWhile isSpace).rest ≠ [] := by
    rw [closes.rest]
    exact List.cons_ne_nil _ _
  have bracket : ((upper.2.extend more).skipWhile isSpace).Reads
      [if upperInclusive then ']' else '}'] (stop.extend more) := by
    rw [skipped beforeClosing]
    refine ⟨?_, closes.position⟩
    simp only [Cursor.extend, closes.rest, List.append_assoc]
  have again : readRange lowerInclusive opening (rest ++ more) = _ :=
    readRange_of_bounds (further lowerRead (rest_ne_nil_of_readBound separatorRead))
      (further separatorRead (rest_ne_nil_of_readBound upperRead)) isTo
      (further upperRead beforeClosing) bracket
  exact again

theorem readOperator_extend {c : Char} {kind token : Token} {position : Nat} {rest : Text}
    {stop : Cursor} (read : readOperator c kind ⟨position + 1, rest⟩ = (token, stop))
    (isSign : kind ∈ [.plus, .minus, .not])
    (apart : token ∈ [.plus, .minus, .not] → stop = ⟨position + 1, []⟩ →
      ∀ c ∈ more.head?, isSpace c = false) :
    readOperator c kind ⟨position + 1, rest ++ more⟩ = (token, stop.extend more) := by
  cases rest with
  | nil =>
    cases read
    cases more with
    | nil => rfl
    | cons first more =>
      have noSpace : isSpace first = false := apart isSign rfl first rfl
      simp [readOperator, noSpace, Cursor.extend]
  | cons first rest =>
    simp only [readOperator] at read
    simp only [readOperator, List.cons_append]
    split at read
    · rename_i space
      cases read
      rw [if_pos space]
      rfl
    · rename_i noSpace
      cases read
      rw [if_neg noSpace]
      rfl

/-- A token is read in the same way if nothing follows that a word would go on with, and no space
behind an operator character at the end. -/
theorem readToken_extend {position : Nat} {c : Char} {rest : Text} {token : Token} {stop : Cursor}
    (read : readToken position c rest = .ok (token, stop)) (ends : EndsWord more)
    (apart : token ∈ [.plus, .minus, .not] → stop = ⟨position + 1, []⟩ →
      ∀ c ∈ more.head?, isSpace c = false) :
    readToken position c (rest ++ more) = .ok (token, stop.extend more) := by
  have decimal (start : Cursor) := readDecimal_extend start ends
  rw [readToken.eq_def] at read
  dsimp only at read
  split at read
  · exact congrArg Except.ok (readOperator_extend (Except.ok.inj read) (by decide) apart)
  · exact congrArg Except.ok (readOperator_extend (Except.ok.inj read) (by decide) apart)
  · exact congrArg Except.ok (readOperator_extend (Except.ok.inj read) (by decide) apart)
  · cases read
    rfl
  · cases read
    rfl
  · cases read
    rfl
  · have number := decimal ⟨position + 1, rest⟩
    split at read
    · cases read
    · rename_i nonempty
      cases read
      simp only [Cursor.extend] at number
      simp only [readToken, number, if_neg nonempty]
      rfl
  · have number := decimal ⟨position + 1, rest⟩
    cases read
    simp only [Cursor.extend] at number
    simp only [readToken, number]
    rfl
  · rcases exists_of_map_eq_ok read with ⟨⟨contents, behind⟩, found, same⟩
    cases same
    simp only [readToken, readEnclosed_extend (by decide) found]
    rfl
  · rcases exists_of_map_eq_ok read with ⟨⟨contents, behind⟩, found, same⟩
    cases same
    simp only [readToken, readEnclosed_extend (by decide) found]
    rfl
  · exact readRange_extend read
  · exact readRange_extend read
  · cases read
  · cases read
  · rw [readToken]
    · exact readWord_extend read ends
    all_goals assumption

theorem scans_spaces {spaces : Text} (space : ∀ c ∈ spaces, isSpace c = true) (position : Nat)
    (rest : Text) :
    Scans ⟨position, spaces ++ rest⟩ [] ⟨position + spaces.length, rest⟩ := by
  induction spaces generalizing position with
  | nil => exact Scans.refl _
  | cons c spaces ih =>
    have later := ih (fun other member => space other (List.mem_cons_of_mem _ member))
      (position + 1)
    have joined := (scans_space (space c List.mem_cons_self) position (spaces ++ rest)).trans later
    refine Scans.recount joined ?_
    rw [List.length_cons]
    omega

theorem scans_skipWhile (start : Cursor) (more : Text) :
    Scans (start.extend more) [] ((start.skipWhile isSpace).extend more) := by
  have skipped := scans_spaces (isSpace_of_mem_takeWhile start.rest) start.position
    ((start.skipWhile isSpace).rest ++ more)
  have reads := start.reads_skipWhile isSpace
  rw [← List.append_assoc, ← reads.rest, ← reads.position] at skipped
  exact skipped

/-- Behind the spaces a token is taken with more text ahead. -/
theorem scans_ahead {start behind : Cursor} {c : Char} {rest : Text} {token : Token}
    (ahead : (start.skipWhile isSpace).rest = c :: rest)
    (taken : readToken (start.skipWhile isSpace).position c (rest ++ more) = .ok (token, behind)) :
    Scans (start.extend more) [⟨token, (start.skipWhile isSpace).position⟩] behind := by
  have skipped := scans_skipWhile start more
  rw [Cursor.extend.eq_def more (start.skipWhile isSpace), ahead] at skipped
  exact skipped.trans (scans_token (start.skipWhile_stops ahead) taken)

/-- What is scanned stays the same in front of more text, by induction on what is left. -/
theorem scans_extend {start : Cursor} {scanned : Scanned} (scans : scanFrom start = .ok scanned)
    (ends : EndsWord more)
    (apart : scanned.EndsInSign → ∀ c ∈ more.head?, isSpace c = false) :
    Scans (start.extend more) scanned.tokens ⟨scanned.stop, more⟩ := by
  fun_induction scanFrom start generalizing scanned with
  | case1 start first =>
    rename_i ended
    cases scans
    have skipped := scans_skipWhile start more
    rw [Cursor.extend.eq_def more (start.skipWhile isSpace), ended] at skipped
    exact skipped
  | case2 => cases scans
  | case3 => cases scans
  | case4 start first c rest ahead token behind read others found =>
    rename_i ih
    cases scans
    have taken : readToken first.position c (rest ++ more) = .ok (token, behind.extend more) := by
      apply readToken_extend read ends
      rintro isSign rfl
      rw [scanFrom_nil] at found
      cases found
      exact apart ⟨_, rfl, isSign, rfl⟩
    have laterApart : others.EndsInSign → ∀ c ∈ more.head?, isSpace c = false := by
      rintro ⟨last, inside, sign⟩
      refine apart ⟨last, ?_, sign⟩
      rw [List.getLast?_cons, Option.mem_def.1 inside]
      rfl
    exact (scans_ahead ahead taken).trans (ih found laterApart)

/-- A text that is scanned alone is scanned in the same way inside another one. -/
theorem scans_of_scan {text : Text} {scanned : Scanned} (scans : scan text = .ok scanned)
    (ends : EndsWord more) (apart : scanned.EndsInSign → ∀ c ∈ more.head?, isSpace c = false)
    (position : Nat) :
    Scans ⟨position, text ++ more⟩ (scanned.tokens.map (Placed.shift position))
      ⟨position + text.length, more⟩ := by
  have moved := (scans_extend scans ends apart).shift position
  rw [stop_of_scan scans] at moved
  simpa [Cursor.shift, Cursor.extend, Cursor.ofText, Nat.add_comm] using moved

end

end AlarmQuery
