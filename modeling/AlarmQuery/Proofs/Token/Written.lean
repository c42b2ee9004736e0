import AlarmQuery.Proofs.Token.Locality

/-!
# Texts that are scanned again

What a token keeps of the text that it was scanned from can be written again: in front of something
that ends a word, the word, number or regular expression of a token is scanned as that token.  The
same holds for plain texts, which stand for themselves, and for ranges whose bounds are plain.
-/

namespace AlarmQuery

/-! ## Words -/

/-- A text that is one word in front of what ends a word. -/
structure Text.IsWord (text : Text) : Prop where
  begins : ∃ c tail, text = c :: tail ∧ BeginsWord c
  letters : ∃ letters, written letters = text ∧ ∀ letter ∈ letters, letter.Continues

/-- A text that stands for itself: nothing in it means anything else, and it is no operator. -/
structure Text.IsPlain (text : Text) : Prop where
  nonempty : text ≠ []
  chars : ∀ c ∈ text, isTermChar c = true
  first : ∀ c ∈ text.head?, isTermStart c = true
  noOperator : text ∉ [['A', 'N', 'D'], ['&', '&'], ['O', 'R'], ['|', '|'], ['N', 'O', 'T']]

/-- Plain texts are recognised character by character. -/
theorem Text.isPlain_iff {text : Text} :
    text.IsPlain ↔ text.isEmpty = false ∧ text.all isTermChar = true ∧
      text.head?.all isTermStart = true ∧
      [['A', 'N', 'D'], ['&', '&'], ['O', 'R'], ['|', '|'], ['N', 'O', 'T']].contains text =
        false := by
  rw [List.isEmpty_eq_false_iff, List.all_eq_true, Option.all_eq_true, ← Bool.not_eq_true,
    List.contains_iff_mem]
  constructor
  · rintro ⟨nonempty, chars, first, noOperator⟩
    exact ⟨nonempty, chars, first, noOperator⟩
  · rintro ⟨nonempty, chars, first, noOperator⟩
    exact ⟨nonempty, chars, first, noOperator⟩

instance (text : Text) : Decidable text.IsPlain := decidable_of_iff _ Text.isPlain_iff.symm

theorem Text.IsWord.scans {text : Text} (word : text.IsWord) {rest : Text} (ends : EndsWord rest)
    (position : Nat) :
    Scans ⟨position, text ++ rest⟩ [⟨.ofWord text, position⟩] ⟨position + text.length, rest⟩ := by
  rcases word.begins with ⟨c, tail, rfl, begins⟩
  exact scans_of_firstToken
    (firstToken_of_readLetters begins (readLetters_eq_ok_iff.2 ⟨rfl, ends, word.letters⟩))

theorem isWord_star : Text.IsWord ['*'] := by
  refine ⟨⟨'*', [], rfl, Or.inr (Or.inr (by decide))⟩, [⟨'*', false⟩], rfl, ?_⟩
  exact List.forall_mem_singleton.2 (Or.inr (Or.inr (by decide)))

/-- A word that is read begins with something that begins a word, since a sign is read as such. -/
theorem isWord_of_readLetters {position : Nat} {c : Char} {rest word behind : Text}
    (noSign : c ≠ '+' ∧ c ≠ '-') (read : readLetters position (c :: rest) = .ok (word, behind))
    (nonempty : word ≠ []) : word.IsWord := by
  rcases readLetters_eq_ok_iff.1 read with ⟨split, _, letters, rfl, continues⟩
  refine ⟨?_, letters, rfl, continues⟩
  cases letters with
  | nil => exact absurd rfl nonempty
  | cons letter letters =>
    have first := continues letter List.mem_cons_self
    rw [written_cons] at split ⊢
    cases escaped : letter.escaped with
    | true =>
      simp only [Letter.text, escaped, if_true]
      exact ⟨'\\', _, rfl, Or.inl rfl⟩
    | false =>
      simp only [Letter.text, escaped, Bool.false_eq_true, if_false] at split ⊢
      obtain rfl : c = letter.char := (List.cons.inj split).1
      refine ⟨letter.char, _, rfl, ?_⟩
      rcases first with marked | term | wildcard
      · rw [escaped] at marked
        cases marked
      · simp only [isTermChar, Bool.or_eq_true, beq_iff_eq] at term
        rcases term with (start | minus) | plus
        · exact Or.inr (Or.inl start)
        · exact absurd minus noSign.2
        · exact absurd plus noSign.1
      · exact Or.inr (Or.inr wildcard)

/-- The letters of a text that has no escapes. -/
def bareLetters (text : Text) : List Letter := text.map (Letter.mk · false)

@[simp]
theorem written_bareLetters (text : Text) : written (bareLetters text) = text := by
  induction text with
  | nil => rfl
  | cons c text ih => exact congrArg (c :: ·) ih

@[simp]
theorem content_bareLetters (text : Text) : content (bareLetters text) = text := by
  rw [content, bareLetters, List.map_map]
  exact List.map_id text

namespace Text.IsPlain

variable {text : Text}

theorem ne_backslash (plain : text.IsPlain) : ∀ c ∈ text, c ≠ '\\' := by
  rintro c member rfl
  exact absurd (plain.chars _ member) (by decide)

theorem isWildcard_eq_false (plain : text.IsPlain) : ∀ c ∈ text, isWildcard c = false := by
  intro c member
  cases wildcard : isWildcard c with
  | false => rfl
  | true =>
    have term := plain.chars c member
    rcases mem_wildcards_iff.1 wildcard with rfl | rfl <;> exact absurd term (by decide)

theorem faithful (plain : text.IsPlain) : ∀ letter ∈ bareLetters text, letter.Faithful := by
  intro letter member
  rcases List.mem_map.1 member with ⟨c, inside, rfl⟩
  exact plain.ne_backslash c inside

theorem begins (plain : text.IsPlain) : ∃ c tail, text = c :: tail ∧ isTermStart c = true := by
  rcases List.exists_cons_of_ne_nil plain.nonempty with ⟨c, tail, rfl⟩
  exact ⟨c, tail, rfl, plain.first c rfl⟩

theorem continues (plain : text.IsPlain) : ∀ letter ∈ bareLetters text, letter.Continues := by
  intro letter member
  rcases List.mem_map.1 member with ⟨c, inside, rfl⟩
  exact Or.inr (Or.inl (plain.chars c inside))

theorem isWord (plain : text.IsPlain) : text.IsWord := by
  refine ⟨?_, bareLetters text, written_bareLetters text, plain.continues⟩
  rcases plain.begins with ⟨c, tail, same, start⟩
  exact ⟨c, tail, same, Or.inr (Or.inl start)⟩

theorem isWord_starred (plain : text.IsPlain) : Text.IsWord (text ++ ['*']) := by
  refine ⟨?_, bareLetters text ++ [⟨'*', false⟩], ?_, ?_⟩
  · rcases plain.begins with ⟨c, tail, rfl, start⟩
    exact ⟨c, tail ++ ['*'], rfl, Or.inr (Or.inl start)⟩
  · rw [written_append, written_bareLetters]
    rfl
  · refine List.forall_mem_append.2 ⟨plain.continues, List.forall_mem_singleton.2 ?_⟩
    exact Or.inr (Or.inr (by decide))

theorem glyphs_eq (plain : text.IsPlain) : glyphs text = text.map Glyph.literal := by
  have elements := glyphs_written plain.faithful
  rw [written_bareLetters, bareLetters, List.map_map] at elements
  rw [elements]
  refine List.map_congr_left fun c member => ?_
  exact Glyph.ofChar_of_not_isWildcard (plain.isWildcard_eq_false c member)

theorem ofWord_eq (plain : text.IsPlain) : Token.ofWord text = .term text := by
  have noStar : text ≠ ['*'] := by
    rintro rfl
    exact absurd (plain.isWildcard_eq_false '*' List.mem_cons_self) (by decide)
  rw [Token.ofWord_of_not_mem plain.noOperator noStar, plain.glyphs_eq, wildcardUse_map_literal]

theorem unescapeAt_eq (plain : text.IsPlain) (position : Nat) :
    unescapeAt position text = .ok text := by
  have read := unescape_written plain.faithful 0
  rw [written_bareLetters, content_bareLetters] at read
  exact unescapeAt_eq_ok_iff.2 read

theorem ofWord_starred (plain : text.IsPlain) :
    Token.ofWord (text ++ ['*']) = .starred (text ++ ['*']) := by
  have faithful : ∀ letter ∈ bareLetters text ++ [⟨'*', false⟩], letter.Faithful :=
    List.forall_mem_append.2 ⟨plain.faithful, by simp [Letter.Faithful]⟩
  have elements := glyphs_written faithful
  rw [written_append, written_bareLetters, List.map_append, ← glyphs_written plain.faithful,
    written_bareLetters, plain.glyphs_eq] at elements
  have noOperator : text ++ ['*'] ∉
      [['A', 'N', 'D'], ['&', '&'], ['O', 'R'], ['|', '|'], ['N', 'O', 'T']] := by
    intro member
    have noStar : ∀ word ∈ [['A', 'N', 'D'], ['&', '&'], ['O', 'R'], ['|', '|'], ['N', 'O', 'T']],
        '*' ∉ word := by
      decide
    exact noStar _ member (List.mem_append_right _ List.mem_cons_self)
  have noStar : text ++ ['*'] ≠ ['*'] := by
    simpa using plain.nonempty
  have final : wildcardUse (glyphs (text ++ ['*'])) = .finalStar := by
    rw [show glyphs (text ++ ['*']) = _ from elements, wildcardUse_literals_append]
    rfl
  rw [Token.ofWord_of_not_mem noOperator noStar, final]

end Text.IsPlain

/-! ## Bounds and ranges -/

/-- In front of a space or a bracket the source is read as a bound. -/
structure IsBound (source text : Text) (quoted : Bool) : Prop where
  begins : ∃ c tail, source = c :: tail ∧ isSpace c = false
  read : ∀ opening position c rest, isBoundChar c = false →
    readBound opening ⟨position, source ++ c :: rest⟩ =
      .ok (⟨text, quoted, position⟩, ⟨position + source.length, c :: rest⟩)

namespace IsBound

theorem quoted {letters : List Letter} (inside : ∀ letter ∈ letters, letter.Inside '"') :
    IsBound ('"' :: (written letters ++ ['"'])) (written letters) true := by
  refine ⟨⟨'"', _, rfl, by decide⟩, fun opening position c rest _ => ?_⟩
  have read := readDelimited_written (by decide) inside (c :: rest)
  simp only [readBound, readEnclosed, List.cons_append, List.append_assoc, List.nil_append, read,
    if_true, Except.map, List.length_cons, List.length_append, List.length_nil]
  rfl

theorem bare {text : Text} (nonempty : text ≠ []) (chars : ∀ c ∈ text, isBoundChar c = true)
    (noQuote : ∀ c ∈ text.head?, c ≠ '"') : IsBound text text false := by
  rcases List.exists_cons_of_ne_nil nonempty with ⟨first, tail, rfl⟩
  constructor
  · refine ⟨first, tail, rfl, ?_⟩
    have char := chars first List.mem_cons_self
    simp only [isBoundChar, Bool.and_eq_true, Bool.not_eq_true'] at char
    exact char.1.1
  · intro opening position c rest stops
    have ends : ∀ other ∈ (c :: rest).head?, isBoundChar other = false :=
      fun other same => Option.some.inj same ▸ stops
    have taken := Cursor.takeWhile_append chars position ends
    rw [List.cons_append] at taken
    simp only [readBound, List.cons_append, if_neg (noQuote first rfl), taken, List.isEmpty_cons,
      Bool.false_eq_true, if_false]

theorem skipWhile_eq {source text : Text} {quoted : Bool} (bound : IsBound source text quoted)
    (position : Nat) (rest : Text) :
    Cursor.skipWhile isSpace ⟨position, source ++ rest⟩ = ⟨position, source ++ rest⟩ := by
  rcases bound.begins with ⟨c, tail, rfl, noSpace⟩
  exact Cursor.skipWhile_cons noSpace position (tail ++ rest)

/-- Behind a space as well. -/
theorem skipWhile_space {source text : Text} {quoted : Bool} (bound : IsBound source text quoted)
    (position : Nat) (rest : Text) :
    Cursor.skipWhile isSpace ⟨position, ' ' :: (source ++ rest)⟩ =
      ⟨position + 1, source ++ rest⟩ := by
  rw [Cursor.skipWhile_cons_of_has (by decide : isSpace ' ' = true), bound.skipWhile_eq]

/-- The word between the bounds of a range is read as a bound. -/
theorem separator : IsBound ['T', 'O'] ['T', 'O'] false :=
  .bare (List.cons_ne_nil _ _) (List.all_iff_forall_prop.1 (by decide)) (by simp)

theorem of_isPlain {text : Text} (plain : text.IsPlain) : IsBound text text false := by
  apply bare plain.nonempty
  · intro c member
    have term := plain.chars c member
    have brackets : c ≠ ']' ∧ c ≠ '}' := by
      constructor <;> rintro rfl <;> exact absurd term (by decide)
    have noSpace : isSpace c = false := by
      simp only [isTermChar, Bool.or_eq_true, beq_iff_eq] at term
      rcases term with (start | rfl) | rfl
      · exact isSpace_of_isTermStart start
      · decide
      · decide
    simp [isBoundChar, noSpace, brackets]
  · rintro c first rfl
    exact absurd (plain.first _ first) (by decide)

theorem star : IsBound ['*'] ['*'] false :=
  .bare (List.cons_ne_nil _ _) (List.all_iff_forall_prop.1 (by decide)) (by simp)

end IsBound

/-- A range with its brackets is scanned as its bounds, which have their places. -/
theorem scans_rangeText {lowerSource upperSource lowerText upperText : Text}
    {lowerQuoted upperQuoted : Bool} (lower : IsBound lowerSource lowerText lowerQuoted)
    (upper : IsBound upperSource upperText upperQuoted) (lowerInclusive upperInclusive : Bool)
    (position : Nat) (rest : Text) :
    ∃ lowerPlace upperPlace,
      Scans ⟨position, rangeText lowerSource upperSource lowerInclusive upperInclusive ++ rest⟩
        [⟨.range ⟨lowerText, lowerQuoted, lowerPlace⟩ ⟨upperText, upperQuoted, upperPlace⟩
          lowerInclusive upperInclusive, position⟩]
        ⟨position + (rangeText lowerSource upperSource lowerInclusive upperInclusive).length,
          rest⟩ := by
  let opening := if lowerInclusive then '[' else '{'
  let closing := if upperInclusive then ']' else '}'
  let behindSeparator := ' ' :: (upperSource ++ closing :: rest)
  let behindLower := ' ' :: (['T', 'O'] ++ behindSeparator)
  have spelled : rangeText lowerSource upperSource lowerInclusive upperInclusive ++ rest =
      opening :: (lowerSource ++ behindLower) := by
    simp [rangeText, opening, closing, behindLower, behindSeparator]
  have noSpace : isSpace opening = false := by
    cases lowerInclusive <;> decide
  have announced : readToken position opening (lowerSource ++ behindLower) =
      readRange lowerInclusive position (lowerSource ++ behindLower) := by
    cases lowerInclusive <;> rfl
  have closes : isBoundChar closing = false ∧ isSpace closing = false := by
    cases upperInclusive <;> decide
  let lowerEnd := position + 1 + lowerSource.length
  let upperEnd := lowerEnd + 1 + 2 + 1 + upperSource.length
  have lowerRead : readBound position
      (Cursor.skipWhile isSpace ⟨position + 1, lowerSource ++ behindLower⟩) =
        .ok (⟨lowerText, lowerQuoted, position + 1⟩, ⟨lowerEnd, behindLower⟩) := by
    rw [lower.skipWhile_eq]
    exact lower.read position (position + 1) ' ' _ (by decide)
  have separatorRead : readBound position (Cursor.skipWhile isSpace ⟨lowerEnd, behindLower⟩) =
      .ok (⟨['T', 'O'], false, lowerEnd + 1⟩, ⟨lowerEnd + 1 + 2, behindSeparator⟩) := by
    rw [IsBound.separator.skipWhile_space]
    exact IsBound.separator.read position (lowerEnd + 1) ' ' _ (by decide)
  have upperRead : readBound position
      (Cursor.skipWhile isSpace ⟨lowerEnd + 1 + 2, behindSeparator⟩) =
        .ok (⟨upperText, upperQuoted, lowerEnd + 1 + 2 + 1⟩, ⟨upperEnd, closing :: rest⟩) := by
    rw [upper.skipWhile_space]
    exact upper.read position (lowerEnd + 1 + 2 + 1) closing rest closes.1
  have bracket : (Cursor.skipWhile isSpace ⟨upperEnd, closing :: rest⟩).Reads [closing]
      ⟨upperEnd + 1, rest⟩ := by
    rw [Cursor.skipWhile_cons closes.2]
    exact ⟨rfl, rfl⟩
  have read : readRange lowerInclusive position (lowerSource ++ behindLower) = _ :=
    readRange_of_bounds lowerRead separatorRead rfl upperRead bracket
  refine ⟨position + 1, lowerEnd + 1 + 2 + 1, ?_⟩
  rw [spelled]
  refine (scans_token noSpace (announced.trans read)).recount ?_
  simp only [rangeText, upperEnd, lowerEnd, List.length_append, List.length_cons, List.length_nil,
    show " TO ".toList.length = 4 from rfl]
  omega

/-! ## Numbers -/

/-- The text of a number: digits, with a point and more digits behind them or without. -/
inductive IsNumeral : Text → Prop
  | whole {digits} (digit : ∀ c ∈ digits, c.isDigit = true) : IsNumeral digits
  | point {digits fraction} (nonempty : digits ≠ []) (digit : ∀ c ∈ digits, c.isDigit = true)
      (more : fraction ≠ []) (behind : ∀ c ∈ fraction, c.isDigit = true) :
      IsNumeral (digits ++ '.' :: fraction)

theorem isNumeral_readDecimal (start : Cursor) : IsNumeral (readDecimal start).1 := by
  have digits (start : Cursor) : ∀ c ∈ (start.takeWhile Char.isDigit).1, c.isDigit = true :=
    fun _ member => List.mem_takeWhile_imp member
  unfold readDecimal
  have first := digits start
  generalize start.takeWhile Char.isDigit = taken at first
  rcases taken with ⟨whole, behind⟩
  dsimp only
  split
  · rename_i rest _
    split
    · exact .whole first
    · rename_i nonempty
      rw [Bool.or_eq_true, not_or, List.isEmpty_iff, List.isEmpty_iff] at nonempty
      exact .point nonempty.1 first nonempty.2 (digits _)
  · exact .whole first

/-- A number is read again in front of what ends a word. -/
theorem IsNumeral.readDecimal_eq {number : Text} (numeral : IsNumeral number) {rest : Text}
    (ends : EndsWord rest) (position : Nat) :
    readDecimal ⟨position, number ++ rest⟩ = (number, ⟨position + number.length, rest⟩) := by
  have noDigit : ∀ c ∈ rest.head?, c.isDigit = false := fun c first => (ends.ne_decimal c first).1
  cases numeral with
  | whole digit =>
    rw [readDecimal, Cursor.takeWhile_append digit position noDigit]
    dsimp only
    split
    · exact absurd rfl (ends.ne_decimal '.' rfl).2
    · rfl
  | @point digits fraction nonempty digit more behind =>
    have stops : ∀ c ∈ ('.' :: (fraction ++ rest)).head?, c.isDigit = false :=
      fun c same => Option.some.inj same ▸ by decide
    have first := Cursor.takeWhile_append digit position stops
    have second := Cursor.takeWhile_append behind (position + digits.length + 1) noDigit
    rw [List.append_assoc, List.cons_append, readDecimal, first]
    simp only [second, List.isEmpty_eq_false_iff.2 nonempty, List.isEmpty_eq_false_iff.2 more,
      Bool.or_self, Bool.false_eq_true, if_false, List.length_append, List.length_cons,
      Prod.mk.injEq, Cursor.mk.injEq, true_and, and_true]
    omega

theorem scans_slop {number : Text} (numeral : IsNumeral number) {rest : Text}
    (ends : EndsWord rest) (position : Nat) :
    Scans ⟨position, '~' :: number ++ rest⟩ [⟨.slop number, position⟩]
      ⟨position + ('~' :: number).length, rest⟩ := by
  apply scans_token (by decide)
  have read := numeral.readDecimal_eq ends (position + 1)
  simp only [List.append_eq, readToken, read, List.length_cons, Except.ok.injEq, Prod.mk.injEq,
    Cursor.mk.injEq, true_and, and_true]
  omega

/-! ## Regular expressions -/

theorem scans_regexp {letters : List Letter} (inside : ∀ letter ∈ letters, letter.Inside '/')
    (position : Nat) (rest : Text) :
    Scans ⟨position, '/' :: (written letters ++ ['/']) ++ rest⟩
      [⟨.regexp (written letters), position⟩]
      ⟨position + ('/' :: (written letters ++ ['/'])).length, rest⟩ := by
  have read := readDelimited_written (by decide) inside rest
  apply scans_token (by decide)
  simp only [readToken, readEnclosed, List.append_eq, List.append_assoc, List.singleton_append,
    read, Except.map, List.length_cons, List.length_append, List.length_nil, Except.ok.injEq,
    Prod.mk.injEq, Cursor.mk.injEq, true_and, and_true]
  omega

/-! ## What scanning stores -/

/-- The text that a token keeps can be written again. -/
def Token.IsStored : Token → Prop
  | .pattern word => Token.ofWord word = .pattern word ∧ word.IsWord
  | .regexp expression => ∃ letters, written letters = expression ∧
      ∀ letter ∈ letters, letter.Inside '/'
  | .slop number => IsNumeral number
  | _ => True

theorem Text.IsWord.isStored {word : Text} (isWord : word.IsWord) :
    (Token.ofWord word).IsStored := by
  generalize same : Token.ofWord word = token
  cases token with
  | pattern other =>
    obtain rfl : other = word := Token.eq_of_word?_ofWord (congrArg Token.word? same)
    exact ⟨same, isWord⟩
  | regexp => exact absurd same (Token.ofWord_ne (by simp) (by simp) (by simp) (by simp))
  | slop => exact absurd same (Token.ofWord_ne (by simp) (by simp) (by simp) (by simp))
  | _ => trivial

theorem isStored_of_readToken {position : Nat} {c : Char} {rest : Text} {token : Token}
    {stop : Cursor} (read : readToken position c rest = .ok (token, stop)) : token.IsStored := by
  have sign (kind : Token) (silent : kind.IsStored) {start : Cursor}
      (found : readOperator c kind start = (token, stop)) : token.IsStored := by
    rw [readOperator] at found
    split at found
    · cases found
      exact silent
    · split at found <;> cases found
      · trivial
      · exact silent
  rw [readToken.eq_def] at read
  dsimp only at read
  split at read
  · exact sign .plus trivial (Except.ok.inj read)
  · exact sign .minus trivial (Except.ok.inj read)
  · exact sign .not trivial (Except.ok.inj read)
  · cases read
    trivial
  · cases read
    trivial
  · cases read
    trivial
  · split at read <;> cases read
    trivial
  · cases read
    exact isNumeral_readDecimal _
  · rcases exists_of_map_eq_ok read with ⟨⟨contents, behind⟩, _, same⟩
    cases same
    trivial
  · rcases exists_of_map_eq_ok read with ⟨⟨contents, behind⟩, found, same⟩
    cases same
    rw [readEnclosed] at found
    split at found
    · cases found
    · rename_i delimited
      cases found
      exact ((readDelimited_eq_some_iff (by decide)).1 delimited).2
  · rcases exists_of_readRange read with ⟨_, _, _, _, _, _, _, _, _, rfl⟩
    trivial
  · rcases exists_of_readRange read with ⟨_, _, _, _, _, _, _, _, _, rfl⟩
    trivial
  · cases read
  · cases read
  · rw [readWord] at read
    split at read
    · cases read
    · rename_i word behind letters
      split at read
      · cases read
      · rename_i nonempty
        cases read
        rw [List.isEmpty_iff] at nonempty
        refine (isWord_of_readLetters ⟨?_, ?_⟩ letters nonempty).isStored
        · assumption
        · assumption

/-- From any place on, by induction on what is left of the text. -/
theorem isStored_of_scanFrom {start : Cursor} {scanned : Scanned}
    (scans : scanFrom start = .ok scanned) : ∀ token ∈ scanned.tokens, token.value.IsStored := by
  fun_induction scanFrom start generalizing scanned with
  | case1 =>
    cases scans
    exact fun _ absent => absurd absent List.not_mem_nil
  | case2 => cases scans
  | case3 => cases scans
  | case4 start first c rest ahead token behind read others found =>
    rename_i later
    cases scans
    exact List.forall_mem_cons.2 ⟨isStored_of_readToken read, later found⟩

end AlarmQuery
