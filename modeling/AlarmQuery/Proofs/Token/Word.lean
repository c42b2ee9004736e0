import AlarmQuery.Proofs.Text.Unescape
import AlarmQuery.Proofs.Token.Scans
import Mathlib.Data.Bool.AllAny
import Mathlib.Tactic.Common

/-!
# Words and quoted texts made of letters

A word ends where a character stands that no word holds, so letters of a word in front of such a
character are scanned as one token.  Between delimiters any letters may stand that are not the
delimiter itself.
-/

namespace AlarmQuery

/-- No word goes on with what follows. -/
def EndsWord (rest : Text) : Prop :=
  ∀ c ∈ rest.head?, c ≠ '\\' ∧ isWildcard c = false ∧ isTermChar c = false

/-- The characters other than spaces that stand in no word unless they are escaped. -/
def wordEnds : List Char := ['!', '(', ')', ':', '^', '[', ']', '"', '{', '}', '~', '/']

/-- What is true of the five spaces and of these characters is true of all that ends a word. -/
theorem holds_of_wordEnd {property : Char → Prop} {c : Char}
    (all : ∀ c ∈ [' ', '\t', '\n', '\r', '\u3000'] ++ wordEnds, property c)
    (ends : isSpace c = true ∨ c ∈ wordEnds) : property c := by
  apply all
  simpa [isSpace, or_assoc] using ends

/-- A word ends in front of spaces and of these characters, and of no others. -/
theorem endsWord_iff {rest : Text} :
    EndsWord rest ↔ ∀ c ∈ rest.head?, isSpace c = true ∨ c ∈ wordEnds := by
  refine forall₂_congr fun c _ => ?_
  constructor
  · rintro ⟨noBackslash, noWildcard, noTerm⟩
    have noStart : isTermStart c = false ∧ c ≠ '-' ∧ c ≠ '+' := by
      simpa [isTermChar, and_assoc] using noTerm
    cases space : isSpace c with
    | true => exact Or.inl rfl
    | false =>
      have listed : c ∈ punctuation := by simpa [isTermStart, space] using noStart.1
      have sorted : ∀ c ∈ punctuation,
          c ∈ ['\\', '-', '+'] ∨ isWildcard c = true ∨ c ∈ wordEnds :=
        List.all_iff_forall_prop.1 (by decide)
      rcases sorted c listed with inWord | wildcard | ends
      · simp [noBackslash, noStart] at inWord
      · rw [noWildcard] at wildcard
        cases wildcard
      · exact Or.inr ends
  · have all : ∀ c ∈ [' ', '\t', '\n', '\r', '\u3000'] ++ wordEnds,
        c ≠ '\\' ∧ isWildcard c = false ∧ isTermChar c = false :=
      List.all_iff_forall_prop.1 (by decide)
    exact holds_of_wordEnd all

theorem endsWord_nil : EndsWord [] := by
  intro c impossible
  cases impossible

theorem endsWord_cons (c : Char) (ends : isSpace c = true ∨ c ∈ wordEnds) (rest : Text) :
    EndsWord (c :: rest) :=
  endsWord_iff.2 fun _ same => Option.some.inj same ▸ ends

/-- A word may begin with this character as it is written. -/
def BeginsWord (c : Char) : Prop := c = '\\' ∨ isTermStart c = true ∨ isWildcard c = true

theorem isTermStart_eq_false_of_mem {c : Char} (member : c ∈ punctuation) :
    isTermStart c = false := by
  simp [isTermStart, member]

theorem isSpace_of_isTermStart {c : Char} (start : isTermStart c = true) : isSpace c = false := by
  simp only [isTermStart, Bool.and_eq_true, Bool.not_eq_true'] at start
  exact start.1

theorem not_mem_punctuation_of_isTermStart {c : Char} (start : isTermStart c = true) :
    c ∉ punctuation := by
  intro member
  rw [isTermStart_eq_false_of_mem member] at start
  cases start

theorem mem_wildcards_iff {c : Char} : isWildcard c = true ↔ c = '*' ∨ c = '?' := by
  simp [isWildcard, wildcards]

/-- The characters that announce another token than a word. -/
def announcers : List Char :=
  ['+', '-', '!', '(', ')', ':', '^', '~', '"', '/', '[', '{', ']', '}']

namespace BeginsWord

theorem isSpace_eq_false {c : Char} (begins : BeginsWord c) : isSpace c = false := by
  rcases begins with rfl | start | wildcard
  · decide
  · exact isSpace_of_isTermStart start
  · rcases mem_wildcards_iff.1 wildcard with rfl | rfl <;> decide

/-- Nothing else begins with a character that begins a word. -/
theorem readToken_eq {c : Char} (begins : BeginsWord c) (position : Nat) (rest : Text) :
    readToken position c rest = readWord position c rest := by
  have listed : ∀ other ∈ announcers, other ∉ ['\\', '*', '?'] ∧ other ∈ punctuation :=
    List.all_iff_forall_prop.1 (by decide)
  have noAnnouncer : c ∉ announcers := by
    intro member
    rcases listed c member with ⟨noWord, inside⟩
    rcases begins with rfl | start | wildcard
    · exact noWord (by decide)
    · exact not_mem_punctuation_of_isTermStart start inside
    · rcases mem_wildcards_iff.1 wildcard with rfl | rfl <;> exact noWord (by decide)
  rw [readToken]
  all_goals
    rintro rfl
    exact noAnnouncer (by decide)

end BeginsWord

/-! ## Words -/

theorem Letter.Continues.bare {letter : Letter} (continues : letter.Continues)
    (bare : letter.escaped = false) :
    letter.char ≠ '\\' ∧ (isWildcard letter.char || isTermChar letter.char) = true := by
  rcases continues with escaped | term | wildcard
  · rw [bare] at escaped
    cases escaped
  · constructor
    · intro backslash
      rw [backslash] at term
      exact absurd term (by decide)
    · simp [term]
  · constructor
    · intro backslash
      rw [backslash] at wildcard
      exact absurd wildcard (by decide)
    · simp [wildcard]

/-- Letters of a word are read to their end. -/
theorem readLetters_written {letters : List Letter}
    (continues : ∀ letter ∈ letters, letter.Continues) {rest : Text} (ends : EndsWord rest)
    (position : Nat) :
    readLetters position (written letters ++ rest) = .ok (written letters, rest) := by
  induction letters generalizing position with
  | nil =>
    cases rest with
    | nil => rfl
    | cons c rest =>
      rcases ends c rfl with ⟨noBackslash, noWildcard, noTerm⟩
      rw [written_nil, List.nil_append, readLetters.eq_def]
      simp [noBackslash, noWildcard, noTerm]
  | cons letter letters ih =>
    have others : ∀ other ∈ letters, other.Continues := fun other member =>
      continues other (List.mem_cons_of_mem _ member)
    rw [written_cons]
    cases escaped : letter.escaped with
    | true =>
      simp only [Letter.text, escaped, if_true, List.cons_append, List.nil_append]
      rw [readLetters.eq_def]
      simp only [if_true]
      rw [ih others]
      rfl
    | false =>
      have bare := (continues letter List.mem_cons_self).bare escaped
      simp only [Letter.text, escaped, Bool.false_eq_true, if_false, List.cons_append,
        List.nil_append]
      rw [readLetters.eq_def]
      simp only [bare.1, bare.2, if_true, if_false]
      rw [ih others]
      rfl

/-- A word is a run of its letters up to something that ends it. -/
theorem readLetters_eq_ok_iff {position : Nat} {text word behind : Text} :
    readLetters position text = .ok (word, behind) ↔
      text = word ++ behind ∧ EndsWord behind ∧
        ∃ letters, written letters = word ∧ ∀ letter ∈ letters, letter.Continues := by
  constructor
  · intro read
    refine ⟨eq_of_readLetters read, ?_⟩
    fun_induction readLetters position text generalizing word behind with
    | case1 =>
      cases read
      exact ⟨endsWord_nil, [], rfl, by simp⟩
    | case2 => cases read
    | case3 position escaped rest ih =>
      rcases exists_of_map_eq_ok read with ⟨⟨inner, after⟩, found, same⟩
      cases same
      rcases ih found with ⟨ends, letters, rfl, continues⟩
      exact ⟨ends, ⟨escaped, true⟩ :: letters, rfl,
        List.forall_mem_cons.2 ⟨Or.inl rfl, continues⟩⟩
    | case4 position c rest _ stands ih =>
      rcases exists_of_map_eq_ok read with ⟨⟨inner, after⟩, found, same⟩
      cases same
      rcases ih found with ⟨ends, letters, rfl, continues⟩
      rw [Bool.or_comm, Bool.or_eq_true] at stands
      exact ⟨ends, ⟨c, false⟩ :: letters, rfl,
        List.forall_mem_cons.2 ⟨Or.inr stands, continues⟩⟩
    | case5 position c rest noBackslash stops =>
      cases read
      rw [Bool.or_eq_true, not_or, Bool.not_eq_true, Bool.not_eq_true] at stops
      refine ⟨fun other same => ?_, [], rfl, by simp⟩
      rw [← Option.some.inj same]
      exact ⟨noBackslash, stops⟩
  · rintro ⟨rfl, ends, letters, rfl, continues⟩
    exact readLetters_written continues ends position

theorem beginsWord_of_inWord {letter : Letter} (inWord : letter.InWord) :
    ∃ c rest, letter.text = c :: rest ∧ BeginsWord c := by
  cases escaped : letter.escaped with
  | true => exact ⟨'\\', [letter.char], by simp [Letter.text, escaped], Or.inl rfl⟩
  | false =>
    refine ⟨letter.char, [], by simp [Letter.text, escaped], ?_⟩
    rcases inWord with marked | start | wildcard
    · rw [escaped] at marked
      cases marked
    · exact Or.inr (Or.inl start)
    · exact Or.inr (Or.inr wildcard)

/-- What is read to its end is a token if it begins a word. -/
theorem firstToken_of_readLetters {position : Nat} {c : Char} {tail rest : Text}
    (begins : BeginsWord c)
    (read : readLetters position (c :: tail ++ rest) = .ok (c :: tail, rest)) :
    firstToken ⟨position, c :: tail ++ rest⟩ =
      .ok (some (⟨.ofWord (c :: tail), position⟩, ⟨position + (c :: tail).length, rest⟩)) := by
  have taken : readToken position c (tail ++ rest) =
      .ok (.ofWord (c :: tail), ⟨position + (c :: tail).length, rest⟩) := by
    rw [begins.readToken_eq, readWord, ← List.cons_append, read]
    simp only [List.isEmpty_cons, Bool.false_eq_true, if_false]
  exact firstToken_of_readToken begins.isSpace_eq_false taken

/-- Letters of a word are one token. -/
theorem firstToken_written {letters : List Letter} (nonempty : letters ≠ [])
    (inWord : ∀ letter ∈ letters, letter.InWord) {rest : Text} (ends : EndsWord rest)
    (position : Nat) :
    firstToken ⟨position, written letters ++ rest⟩ =
      .ok (some (⟨.ofWord (written letters), position⟩,
        ⟨position + (written letters).length, rest⟩)) := by
  rcases List.exists_cons_of_ne_nil nonempty with ⟨first, others, rfl⟩
  rcases beginsWord_of_inWord (inWord first List.mem_cons_self) with ⟨c, tail, firstText, begins⟩
  have read := readLetters_written (fun letter member => (inWord letter member).continues) ends
    position
  have spelled : written (first :: others) = c :: (tail ++ written others) := by
    rw [written_cons, firstText, List.cons_append]
  rw [spelled] at read ⊢
  exact firstToken_of_readLetters begins read

theorem scans_word {letters : List Letter} (nonempty : letters ≠ [])
    (inWord : ∀ letter ∈ letters, letter.InWord) {rest : Text} (ends : EndsWord rest)
    (position : Nat) :
    Scans ⟨position, written letters ++ rest⟩ [⟨.ofWord (written letters), position⟩]
      ⟨position + (written letters).length, rest⟩ :=
  scans_of_firstToken (firstToken_written nonempty inWord ends position)

/-! ## Quoted texts -/

/-- Letters between delimiters are read to the closing one. -/
theorem readDelimited_written {delimiter : Char} (noBackslash : delimiter ≠ '\\')
    {letters : List Letter} (inside : ∀ letter ∈ letters, letter.Inside delimiter)
    (rest : Text) :
    readDelimited delimiter (written letters ++ delimiter :: rest) =
      some (written letters, rest) := by
  induction letters with
  | nil =>
    rw [written_nil, List.nil_append, readDelimited.eq_def]
    simp
  | cons letter letters ih =>
    have others : ∀ other ∈ letters, other.Inside delimiter := fun other member =>
      inside other (List.mem_cons_of_mem _ member)
    rw [written_cons]
    cases escaped : letter.escaped with
    | true =>
      simp only [Letter.text, escaped, if_true, List.cons_append, List.nil_append]
      rw [readDelimited.eq_def]
      simp only [noBackslash.symm, if_true, if_false]
      rw [ih others]
      rfl
    | false =>
      rcases inside letter List.mem_cons_self escaped with ⟨noDelimiter, bare⟩
      simp only [Letter.text, escaped, Bool.false_eq_true, if_false, List.cons_append,
        List.nil_append]
      rw [readDelimited.eq_def]
      simp only [noDelimiter, bare, if_false]
      rw [ih others]
      rfl

/-- What is read up to a delimiter is a run of letters that do not end it. -/
theorem readDelimited_eq_some_iff {delimiter : Char} (noBackslash : delimiter ≠ '\\')
    {text contents behind : Text} :
    readDelimited delimiter text = some (contents, behind) ↔
      text = contents ++ delimiter :: behind ∧
        ∃ letters, written letters = contents ∧ ∀ letter ∈ letters, letter.Inside delimiter := by
  constructor
  · intro read
    refine ⟨eq_of_readDelimited read, ?_⟩
    fun_induction readDelimited delimiter text generalizing contents behind with
    | case1 => cases read
    | case2 =>
      cases read
      exact ⟨[], rfl, by simp⟩
    | case3 => cases read
    | case4 escaped rest _ ih =>
      rcases Option.map_eq_some_iff.1 read with ⟨⟨inner, after⟩, found, same⟩
      cases same
      rcases ih found with ⟨letters, rfl, inside⟩
      exact ⟨⟨escaped, true⟩ :: letters, rfl,
        List.forall_mem_cons.2 ⟨fun bare => Bool.noConfusion bare, inside⟩⟩
    | case5 c rest noDelimiter bare ih =>
      rcases Option.map_eq_some_iff.1 read with ⟨⟨inner, after⟩, found, same⟩
      cases same
      rcases ih found with ⟨letters, rfl, inside⟩
      exact ⟨⟨c, false⟩ :: letters, rfl,
        List.forall_mem_cons.2 ⟨fun _ => ⟨noDelimiter, bare⟩, inside⟩⟩
  · rintro ⟨rfl, letters, rfl, inside⟩
    exact readDelimited_written noBackslash inside behind

/-! ## Which token a word is -/

theorem Glyph.ofChar_of_not_isWildcard {c : Char} (plain : isWildcard c = false) :
    Glyph.ofChar c = .literal c := by
  have noWildcard : ¬(c = '*' ∨ c = '?') := by
    rw [← mem_wildcards_iff, plain]
    exact Bool.false_ne_true
  rw [not_or] at noWildcard
  simp [Glyph.ofChar, noWildcard]

/-- The wildcards of a word that is no operator and no star decide what it is. -/
theorem Token.ofWord_of_not_mem {word : Text}
    (noOperator : word ∉ [['A', 'N', 'D'], ['&', '&'], ['O', 'R'], ['|', '|'], ['N', 'O', 'T']])
    (noStar : word ≠ ['*']) :
    Token.ofWord word = match wildcardUse (glyphs word) with
      | .none => .term word
      | .finalStar => .starred word
      | .general => .pattern word := by
  simp only [List.mem_cons, List.not_mem_nil, or_false, not_or] at noOperator
  rcases noOperator with ⟨noAnd, noAmpersands, noOr, noBars, noNot⟩
  rw [Token.ofWord]
  exact (if_neg (not_or.2 ⟨noAnd, noAmpersands⟩)).trans
    ((if_neg (not_or.2 ⟨noOr, noBars⟩)).trans ((if_neg noNot).trans (if_neg noStar)))

theorem wildcardUse_ofChar_of_not_isWildcard {c : Char} (plain : isWildcard c = false)
    (rest : List Glyph) : wildcardUse (Glyph.ofChar c :: rest) = wildcardUse rest := by
  rw [Glyph.ofChar_of_not_isWildcard plain]
  rfl

theorem wildcardUse_literals_append (text : Text) (rest : List Glyph) :
    wildcardUse (text.map Glyph.literal ++ rest) = wildcardUse rest := by
  induction text with
  | nil => rfl
  | cons c text ih => exact ih

@[simp]
theorem wildcardUse_map_literal (text : Text) :
    wildcardUse (text.map Glyph.literal) = .none := by
  have only := wildcardUse_literals_append text []
  rwa [List.append_nil] at only

/-- A star that is the only wildcard stands behind literals. -/
theorem exists_of_wildcardUse_eq_finalStar {elements : List Glyph}
    (final : wildcardUse elements = .finalStar) :
    ∃ text : Text, elements = text.map Glyph.literal ++ [.anyMany] := by
  induction elements with
  | nil => cases final
  | cons element elements ih =>
    cases element with
    | literal c =>
      rcases ih final with ⟨text, rfl⟩
      exact ⟨c :: text, rfl⟩
    | anyOne => cases final
    | anyMany =>
      cases elements with
      | nil => exact ⟨[], rfl⟩
      | cons next elements => cases final

end AlarmQuery
