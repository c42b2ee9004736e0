import AlarmQuery.Proofs.Token.Word

/-!
# Escaped texts

What escaping leaves bare is a letter of a word or a stray space: a space that the escape does not
mark, although it separates tokens.  Without stray spaces an escaped text is one token wherever a
word may end behind it, and its live wildcards decide which one.  Between quotes it is read to its
end in any case.
-/

namespace AlarmQuery

/-! ## The letters of an escaped text -/

/-- A space that stays as it is in an escaped text: a tab, a line feed, a carriage return or an
ideographic space. -/
def isStray (c : Char) : Bool := c == '\t' || c == '\n' || c == '\r' || c == '\u3000'

/-- A text without stray spaces. -/
def Unbroken (text : Text) : Prop := ∀ c ∈ text, isStray c = false

instance (text : Text) : Decidable (Unbroken text) :=
  List.decidableBAll _ text

theorem isStray_iff {c : Char} : isStray c = true ↔ isSpace c = true ∧ c ≠ ' ' := by
  simp only [isStray, isSpace, Bool.or_eq_true, beq_iff_eq]
  constructor
  · rintro (((rfl | rfl) | rfl) | rfl) <;> decide
  · rintro ⟨space, noBlank⟩
    simpa [noBlank] using space

theorem isSpace_of_isStray {c : Char} (stray : isStray c = true) : isSpace c = true :=
  (isStray_iff.1 stray).1

/-- A bare letter of an escaped text begins or continues a word, or is a stray space. -/
theorem bare_cases {literal : Bool} {text : Text} {letter : Letter}
    (member : letter ∈ escapeLetters literal text) (bare : letter.escaped = false) :
    isTermStart letter.char = true ∨ isWildcard letter.char = true ∨
      isStray letter.char = true := by
  have plain := needsEscape_of_bare member bare
  simp only [needsEscape, Bool.or_eq_false_iff] at plain
  have noSpecial : letter.char ∉ specials := by
    intro special
    rw [List.contains_iff_mem.2 special] at plain
    cases plain.1
  by_cases wildcard : isWildcard letter.char = true
  · exact Or.inr (Or.inl wildcard)
  · have noBlank : letter.char ≠ ' ' := by
      intro blank
      rw [blank] at noSpecial
      exact noSpecial (by decide)
    have noPunctuation : letter.char ∉ punctuation := by
      intro inside
      have listed : ∀ c ∈ punctuation, c ∈ specials ∨ isWildcard c = true :=
        List.all_iff_forall_prop.1 (by decide)
      rcases listed letter.char inside with special | live
      · exact noSpecial special
      · exact wildcard live
    cases space : isSpace letter.char with
    | true => exact Or.inr (Or.inr (isStray_iff.2 ⟨space, noBlank⟩))
    | false => exact Or.inl (by simp [isTermStart, space, noPunctuation])

theorem isStray_of_escaped {literal : Bool} {text : Text} {letter : Letter}
    (member : letter ∈ escapeLetters literal text) (escaped : letter.escaped = true) :
    isStray letter.char = false := by
  have listed := char_mem_of_escaped member escaped
  have all : ∀ c ∈ specials ++ wildcards ++ ['A', 'O', 'N'], isStray c = false :=
    List.all_iff_forall_prop.1 (by decide)
  exact all letter.char listed

theorem text_of_isStray {literal : Bool} {text : Text} {letter : Letter}
    (member : letter ∈ escapeLetters literal text) (stray : isStray letter.char = true) :
    letter.text = [letter.char] := by
  cases escaped : letter.escaped with
  | true =>
    rw [isStray_of_escaped member escaped] at stray
    cases stray
  | false => simp [Letter.text, escaped]

/-- Letters of an escaped text that are no stray spaces stand in words. -/
theorem inWord_of_not_isStray {literal : Bool} {text : Text} {letter : Letter}
    (member : letter ∈ escapeLetters literal text) (unbroken : isStray letter.char = false) :
    letter.InWord := by
  cases escaped : letter.escaped with
  | true => exact Or.inl escaped
  | false =>
    rcases bare_cases member escaped with start | wildcard | stray
    · exact Or.inr (Or.inl start)
    · exact Or.inr (Or.inr wildcard)
    · rw [unbroken] at stray
      cases stray

theorem inWord_escapeLetters (literal : Bool) {text : Text} (unbroken : Unbroken text) :
    ∀ letter ∈ escapeLetters literal text, letter.InWord := by
  intro letter member
  apply inWord_of_not_isStray member
  apply unbroken
  have inside : letter.char ∈ content (escapeLetters literal text) := List.mem_map_of_mem member
  rwa [content_escapeLetters] at inside

/-- An escaped text does not end in front of a special character. -/
theorem inside_escapeLetters {delimiter : Char} (special : delimiter ∈ specials) {literal : Bool}
    {text : Text} : ∀ letter ∈ escapeLetters literal text, letter.Inside delimiter := by
  intro letter member bare
  have plain := needsEscape_of_bare member bare
  simp only [needsEscape, Bool.or_eq_false_iff] at plain
  constructor
  · intro same
    rw [same, List.contains_iff_mem.2 special] at plain
    cases plain.1
  · intro backslash
    rw [backslash] at plain
    exact absurd plain.1 (by decide)

/-! ## The pattern that an escaped text is -/

/-- The elements that an escaped text stands for: wildcards, unless they are literal. -/
def patternOf (literal : Bool) (text : Text) : List Glyph :=
  text.map fun c => if literal then .literal c else .ofChar c

@[simp]
theorem map_char_patternOf (literal : Bool) (text : Text) :
    (patternOf literal text).map Glyph.char = text := by
  rw [patternOf, List.map_map]
  calc text.map _ = text.map id := by
        apply List.map_congr_left
        intro c _
        cases literal with
        | true => rfl
        | false => exact Glyph.char_ofChar c
    _ = text := List.map_id text

theorem patternOf_true (text : Text) : patternOf true text = text.map .literal := rfl

theorem patternOf_false_eq_iff {text : Text} :
    patternOf false text = text.map .literal ↔ text.any isWildcard = false := by
  rw [patternOf, List.map_inj_left, List.any_eq_false]
  constructor
  · intro same c member wildcard
    have literal : Glyph.ofChar c = .literal c := same c member
    have live := Glyph.isLiteralWildcard_ofChar c
    rw [literal] at live
    exact Bool.noConfusion (live.symm.trans wildcard)
  · intro plain c member
    exact Glyph.ofChar_of_not_isWildcard (Bool.eq_false_iff.2 (plain c member))

/-- Nothing is live in a literal text or in one without wildcards. -/
theorem wildcardUse_patternOf_eq_none_iff {literal : Bool} {text : Text} :
    wildcardUse (patternOf literal text) = .none ↔
      literal = true ∨ text.any isWildcard = false := by
  constructor
  · intro notLive
    cases literal with
    | true => exact Or.inl rfl
    | false =>
      right
      induction text with
      | nil => rfl
      | cons c text ih =>
        by_cases wildcard : isWildcard c = true
        · rcases mem_wildcards_iff.1 wildcard with rfl | rfl
          · cases text with
            | nil => cases notLive
            | cons next text => cases notLive
          · cases notLive
        · have plain := Bool.eq_false_iff.2 wildcard
          have rest : wildcardUse (patternOf false text) = .none :=
            (wildcardUse_ofChar_of_not_isWildcard plain _).symm.trans notLive
          rw [List.any_cons, plain, ih rest]
          rfl
  · rintro (rfl | plain)
    · exact wildcardUse_map_literal text
    · cases literal with
      | true => exact wildcardUse_map_literal text
      | false =>
        rw [patternOf_false_eq_iff.2 plain]
        exact wildcardUse_map_literal text

/-- The only wildcard of the text is a `*` at its end. -/
def OnlyFinalStar (text : Text) : Prop :=
  text.getLast? = some '*' ∧ text.dropLast.any isWildcard = false

instance (text : Text) : Decidable (OnlyFinalStar text) :=
  inferInstanceAs (Decidable (_ ∧ _))

theorem onlyFinalStar_iff {text : Text} :
    OnlyFinalStar text ↔
      ∃ beginning, text = beginning ++ ['*'] ∧ beginning.any isWildcard = false := by
  constructor
  · rintro ⟨last, plain⟩
    rcases List.getLast?_eq_some_iff.1 last with ⟨beginning, rfl⟩
    rw [List.dropLast_concat] at plain
    exact ⟨beginning, rfl, plain⟩
  · rintro ⟨beginning, rfl, plain⟩
    exact ⟨List.getLast?_concat, by rwa [List.dropLast_concat]⟩

theorem wildcardUse_patternOf_eq_finalStar_iff {literal : Bool} {text : Text} :
    wildcardUse (patternOf literal text) = .finalStar ↔
      literal = false ∧ OnlyFinalStar text := by
  rw [onlyFinalStar_iff]
  constructor
  · intro final
    cases literal with
    | true =>
      rw [patternOf_true, wildcardUse_map_literal] at final
      cases final
    | false =>
      rcases exists_of_wildcardUse_eq_finalStar final with ⟨literals, split⟩
      rcases List.map_eq_append_iff.1 split with ⟨beginning, last, rfl, plain, star⟩
      have characters : beginning = literals := by
        have read := congrArg (List.map Glyph.char) plain
        exact (map_char_patternOf false beginning).symm.trans
          (read.trans (map_char_patternOf true literals))
      have stars : last = ['*'] :=
        (map_char_patternOf false last).symm.trans (congrArg (List.map Glyph.char) star)
      rw [← characters] at plain
      rw [stars]
      exact ⟨rfl, beginning, rfl, patternOf_false_eq_iff.1 plain⟩
  · rintro ⟨rfl, beginning, rfl, plain⟩
    have split : patternOf false (beginning ++ ['*']) =
        beginning.map Glyph.literal ++ [.anyMany] := by
      rw [← patternOf_false_eq_iff.2 plain]
      exact List.map_append
    rw [split, wildcardUse_literals_append]
    rfl

theorem Letter.glyph_of_mem {literal : Bool} {text : Text} {letter : Letter}
    (member : letter ∈ escapeLetters literal text) :
    letter.glyph = if literal then .literal letter.char else .ofChar letter.char := by
  cases escaped : letter.escaped with
  | true =>
    simp only [Letter.glyph, escaped, if_true]
    cases literal with
    | true => rfl
    | false =>
      have plain : isWildcard letter.char = false := by
        rcases mem_escapeLetters member with same | ⟨_, first⟩
        · have special : letter.char ∈ specials := by simpa [needsEscape, escaped] using same
          have all : ∀ c ∈ specials, isWildcard c = false :=
            List.all_iff_forall_prop.1 (by decide)
          exact all letter.char special
        · have all : ∀ c ∈ ['A', 'O', 'N'], isWildcard c = false :=
            List.all_iff_forall_prop.1 (by decide)
          exact all letter.char first
      simp [Glyph.ofChar_of_not_isWildcard plain]
  | false =>
    simp only [Letter.glyph, escaped, Bool.false_eq_true, if_false]
    cases literal with
    | true =>
      have plain := needsEscape_of_bare member escaped
      simp only [needsEscape, Bool.true_and, Bool.or_eq_false_iff] at plain
      simp [Glyph.ofChar_of_not_isWildcard plain.2]
    | false => rfl

/-- An escaped text is the pattern that its characters are. -/
theorem glyphs_escape (literal : Bool) (text : Text) :
    glyphs (escape literal text) = patternOf literal text := by
  rw [escape_eq_written, glyphs_written faithful_escapeLetters]
  calc (escapeLetters literal text).map Letter.glyph
      = (escapeLetters literal text).map fun letter =>
          if literal then .literal letter.char else .ofChar letter.char :=
        List.map_congr_left fun _ member => Letter.glyph_of_mem member
    _ = patternOf literal (content (escapeLetters literal text)) := by
        simp [patternOf, content]
    _ = patternOf literal text := by rw [content_escapeLetters]

/-! ## Which token an escaped text is -/

/-- A text that reads as itself is what is written for a text only when it is that text. -/
theorem eq_of_escape_eq {literal : Bool} {text word : Text} (same : escape literal text = word)
    (bare : unescape 0 word = .ok word) : text = word := by
  have read := unescape_escape literal text 0
  rw [same, bare] at read
  exact (Except.ok.inj read).symm

theorem escape_ne_operator (literal : Bool) (text : Text) :
    escape literal text ∉
      [['A', 'N', 'D'], ['&', '&'], ['O', 'R'], ['|', '|'], ['N', 'O', 'T']] := by
  intro member
  simp only [List.mem_cons, List.not_mem_nil, or_false] at member
  rcases member with same | same | same | same | same
  all_goals
    have spelled := eq_of_escape_eq same rfl
    rw [spelled] at same
    revert same
    cases literal <;> decide

theorem escape_eq_star_iff {literal : Bool} {text : Text} :
    escape literal text = ['*'] ↔ text = ['*'] ∧ literal = false := by
  constructor
  · intro same
    have spelled := eq_of_escape_eq same rfl
    refine ⟨spelled, ?_⟩
    rw [spelled] at same
    revert same
    cases literal <;> decide
  · rintro ⟨rfl, rfl⟩
    rfl

/-- An escaped text is a star or a word whose wildcards decide what it is. -/
theorem ofWord_escape (literal : Bool) (text : Text) :
    Token.ofWord (escape literal text) =
      if text = ['*'] ∧ literal = false then .star
      else match wildcardUse (patternOf literal text) with
        | .none => .term (escape literal text)
        | .finalStar => .starred (escape literal text)
        | .general => .pattern (escape literal text) := by
  by_cases star : text = ['*'] ∧ literal = false
  · rw [if_pos star, escape_eq_star_iff.2 star]
    rfl
  · rw [if_neg star, ← glyphs_escape]
    exact Token.ofWord_of_not_mem (escape_ne_operator literal text)
      fun same => star (escape_eq_star_iff.1 same)

/-- The token that an escaped text is in a query. -/
def escapedToken (literal : Bool) (text : Text) : Token :=
  if literal = true ∨ text.any isWildcard = false then .term (escape literal text)
  else if text = ['*'] then .star
  else if OnlyFinalStar text then .starred (escape literal text)
  else .pattern (escape literal text)

theorem ofWord_escape_eq (literal : Bool) (text : Text) :
    Token.ofWord (escape literal text) = escapedToken literal text := by
  rw [ofWord_escape, escapedToken]
  by_cases plain : literal = true ∨ text.any isWildcard = false
  · have noStar : ¬(text = ['*'] ∧ literal = false) := by
      rintro ⟨rfl, rfl⟩
      exact absurd plain (by decide)
    rw [if_neg noStar, if_pos plain, wildcardUse_patternOf_eq_none_iff.2 plain]
  · have live : literal = false := Bool.eq_false_iff.2 fun escaped => plain (Or.inl escaped)
    rw [if_neg plain]
    by_cases star : text = ['*']
    · rw [if_pos ⟨star, live⟩, if_pos star]
    · rw [if_neg fun both => star both.1, if_neg star]
      cases use : wildcardUse (patternOf literal text) with
      | none => exact absurd (wildcardUse_patternOf_eq_none_iff.1 use) plain
      | finalStar => rw [if_pos (wildcardUse_patternOf_eq_finalStar_iff.1 use).2]
      | general =>
        have noFinal : ¬OnlyFinalStar text := by
          intro final
          rw [wildcardUse_patternOf_eq_finalStar_iff.2 ⟨live, final⟩] at use
          cases use
        rw [if_neg noFinal]

/-- Without live wildcards an escaped text is a term. -/
theorem escapedToken_literal (text : Text) :
    escapedToken true text = .term (escape true text) :=
  if_pos (Or.inl rfl)

theorem escapedToken_ne_operator (literal : Bool) (text : Text) :
    escapedToken literal text ∉ [.and, .or, .not] := by
  unfold escapedToken
  split
  · simp
  · split
    · simp
    · split <;> simp

/-! ## Reading an escaped text -/

theorem escapeLetters_ne_nil (literal : Bool) {text : Text} (nonempty : text ≠ []) :
    escapeLetters literal text ≠ [] := by
  intro empty
  have content := content_escapeLetters literal text
  rw [empty] at content
  exact nonempty content.symm

/-- Without stray spaces an escaped text is one token. -/
theorem firstToken_escape (literal : Bool) {text : Text} (nonempty : text ≠ [])
    (unbroken : Unbroken text) {rest : Text} (ends : EndsWord rest) (position : Nat) :
    firstToken ⟨position, escape literal text ++ rest⟩ =
      .ok (some (⟨escapedToken literal text, position⟩,
        ⟨position + (escape literal text).length, rest⟩)) := by
  rw [← ofWord_escape_eq, escape_eq_written]
  exact firstToken_written (escapeLetters_ne_nil literal nonempty)
    (inWord_escapeLetters literal unbroken) ends position

theorem exists_escape_eq_cons (literal : Bool) {text : Text} (nonempty : text ≠ [])
    (unbroken : Unbroken text) : ∃ c rest, escape literal text = c :: rest ∧ isSpace c = false := by
  rcases List.exists_cons_of_ne_nil (escapeLetters_ne_nil literal nonempty) with
    ⟨letter, letters, spelled⟩
  have inWord : letter.InWord :=
    inWord_escapeLetters literal unbroken letter (spelled ▸ List.mem_cons_self)
  rcases beginsWord_of_inWord inWord with ⟨c, tail, firstText, begins⟩
  refine ⟨c, tail ++ written letters, ?_, begins.isSpace_eq_false⟩
  rw [escape_eq_written, spelled, written_cons, firstText, List.cons_append]

/-- The name of a field is one word in front of its colon. -/
theorem scans_field {field : Text} (named : field ≠ []) (unbroken : Unbroken field)
    (position : Nat) (rest : Text) :
    Scans ⟨position, escape true field ++ ':' :: rest⟩
      [⟨.term (escape true field), position⟩, ⟨.colon, position + (escape true field).length⟩]
      ⟨position + (escape true field).length + 1, rest⟩ := by
  have ends : EndsWord (':' :: rest) := endsWord_cons ':' (by decide) rest
  have name := firstToken_escape true named unbroken ends position
  rw [escapedToken_literal] at name
  exact (scans_of_firstToken name).trans (scans_colon _ rest)

/-- In front of a special character any escaped text is read to its end. -/
theorem readDelimited_escape {delimiter : Char} (special : delimiter ∈ specials)
    (noBackslash : delimiter ≠ '\\') (literal : Bool) (text rest : Text) :
    readDelimited delimiter (escape literal text ++ delimiter :: rest) =
      some (escape literal text, rest) := by
  rw [escape_eq_written]
  exact readDelimited_written noBackslash (inside_escapeLetters special) rest

theorem readEnclosed_escape (what : Enclosed) (literal : Bool) (text : Text) (opening : Nat)
    (rest : Text) :
    readEnclosed what '"' opening (escape literal text ++ '"' :: rest) =
      .ok (escape literal text, ⟨opening + (escape literal text).length + 2, rest⟩) := by
  rw [readEnclosed, readDelimited_escape (by decide) (by decide)]

/-- An escaped text is taken whole and read as the text that it stands for.  In front of a space or
of punctuation it is a single word and never an operator, if it has no stray spaces, and between
quotes it ends at the quote behind it whatever it is. -/
theorem escape_taken_whole (literal : Bool) (text rest : Text) (position : Nat) :
    (text ≠ [] → Unbroken text → (∀ c ∈ rest.head?, isSpace c = true ∨ c ∈ wordEnds) →
      firstToken ⟨position, escape literal text ++ rest⟩ =
        .ok (some (⟨escapedToken literal text, position⟩,
          ⟨position + (escape literal text).length, rest⟩)) ∧
      escapedToken literal text ∉ [.and, .or, .not]) ∧
    (∀ what, readEnclosed what '"' position (escape literal text ++ '"' :: rest) =
      .ok (escape literal text, ⟨position + (escape literal text).length + 2, rest⟩)) ∧
    ∀ offset, unescape offset (escape literal text) = .ok text := by
  refine ⟨?_, ?_, ?_⟩
  · intro nonempty unbroken ends
    exact ⟨firstToken_escape literal nonempty unbroken (endsWord_iff.2 ends) position,
      escapedToken_ne_operator literal text⟩
  · exact fun what => readEnclosed_escape what literal text position rest
  · exact unescape_escape literal text

/-- An operator word in front of a parenthesis, and a text whose quotes and spaces are escaped in
front of a wide space. -/
theorem escape_taken_whole_of_operator_word :
    firstToken ⟨0, "\\AND)".toList⟩ =
        .ok (some (⟨.term "\\AND".toList, 0⟩, ⟨4, [')']⟩)) ∧
      firstToken ⟨3, "\\|a\\ b\\\"*\u3000OR".toList⟩ =
        .ok (some (⟨.starred "\\|a\\ b\\\"*".toList, 3⟩, ⟨12, "\u3000OR".toList⟩)) := by
  have operator := (escape_taken_whole false "AND".toList [')'] 0).1 (by decide) (by decide)
    fun c same => Option.some.inj same ▸ Or.inr (by decide)
  have starred := (escape_taken_whole false "|a b\"*".toList "\u3000OR".toList 3).1 (by decide)
    (by decide) fun c same => Option.some.inj same ▸ Or.inl (by decide)
  exact ⟨operator.1, starred.1⟩

end AlarmQuery
