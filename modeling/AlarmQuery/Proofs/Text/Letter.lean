import AlarmQuery.Text.Pattern
import AlarmQuery.Token.Read
import Mathlib.Logic.Function.Basic

/-!
# Letters of a written text

A text that stands in a query is a sequence of letters: characters, each of them with a backslash
in front or without.  Every reader of words and of quoted strings only ever looks at one letter at
a time, so what a reader does to a written text is said once for its letters, and escaping enters
only through `escapeLetters`, the letters that it writes.
-/

namespace AlarmQuery

/-- A character as it stands in a query. -/
structure Letter where
  char : Char
  escaped : Bool
deriving DecidableEq, Repr

namespace Letter

/-- What is written for a letter. -/
def text (letter : Letter) : Text :=
  if letter.escaped then ['\\', letter.char] else [letter.char]

/-- What a letter is in a pattern. -/
def glyph (letter : Letter) : Glyph :=
  if letter.escaped then .literal letter.char else .ofChar letter.char

/-- The letter is read as its character: it is neither the backslash of an escape nor the
beginning of a code. -/
def Faithful (letter : Letter) : Prop :=
  if letter.escaped then letter.char ≠ 'u' else letter.char ≠ '\\'

/-- The letter can stand anywhere in a word. -/
def InWord (letter : Letter) : Prop :=
  letter.escaped = true ∨ isTermStart letter.char = true ∨ isWildcard letter.char = true

/-- The letter can stand in a word behind its beginning. -/
def Continues (letter : Letter) : Prop :=
  letter.escaped = true ∨ isTermChar letter.char = true ∨ isWildcard letter.char = true

/-- The letter does not end a text in front of `delimiter`. -/
def Inside (delimiter : Char) (letter : Letter) : Prop :=
  letter.escaped = false → letter.char ≠ delimiter ∧ letter.char ≠ '\\'

theorem InWord.continues {letter : Letter} (inWord : letter.InWord) : letter.Continues := by
  rcases inWord with escaped | start | wildcard
  · exact Or.inl escaped
  · exact Or.inr (Or.inl (by simp [isTermChar, start]))
  · exact Or.inr (Or.inr wildcard)

theorem Faithful.char_ne {letter : Letter} (faithful : letter.Faithful)
    (bare : letter.escaped = false) : letter.char ≠ '\\' := by
  simpa [Faithful, bare] using faithful

theorem Faithful.char_ne_code {letter : Letter} (faithful : letter.Faithful)
    (escaped : letter.escaped = true) : letter.char ≠ 'u' := by
  simpa [Faithful, escaped] using faithful

end Letter

/-- The text that letters are written as. -/
def written (letters : List Letter) : Text := letters.flatMap Letter.text

/-- The characters that letters stand for. -/
def content (letters : List Letter) : Text := letters.map Letter.char

@[simp]
theorem written_nil : written [] = [] := rfl

theorem written_cons (letter : Letter) (letters : List Letter) :
    written (letter :: letters) = letter.text ++ written letters := rfl

theorem written_append (first second : List Letter) :
    written (first ++ second) = written first ++ written second :=
  List.flatMap_append

@[simp]
theorem content_nil : content [] = [] := rfl

@[simp]
theorem content_cons (letter : Letter) (letters : List Letter) :
    content (letter :: letters) = letter.char :: content letters := rfl

/-! ## Reading letters -/

/-- A backslash and the character behind it are read as the character. -/
theorem unescape_escaped {c : Char} (noCode : c ≠ 'u') (position : Nat) (rest : Text) :
    unescape position ('\\' :: c :: rest) = (unescape (position + 2) rest).map (c :: ·) := by
  rw [unescape]
  · exact fun _ _ _ _ _ code _ => noCode code
  · exact noCode

theorem unescape_bare {c : Char} (noBackslash : c ≠ '\\') (position : Nat) (rest : Text) :
    unescape position (c :: rest) = (unescape (position + 1) rest).map (c :: ·) := by
  rw [unescape]
  all_goals simp [noBackslash]

/-- Unescaping takes the letters back to their characters. -/
theorem unescape_written {letters : List Letter}
    (faithful : ∀ letter ∈ letters, letter.Faithful) (position : Nat) :
    unescape position (written letters) = .ok (content letters) := by
  induction letters generalizing position with
  | nil => rfl
  | cons letter letters ih =>
    have first : letter.Faithful := faithful letter List.mem_cons_self
    have others : ∀ other ∈ letters, other.Faithful := fun other member =>
      faithful other (List.mem_cons_of_mem _ member)
    rw [written_cons]
    cases escaped : letter.escaped with
    | true =>
      simp only [Letter.text, escaped, if_true, List.cons_append, List.nil_append]
      rw [unescape_escaped (first.char_ne_code escaped), ih others]
      rfl
    | false =>
      simp only [Letter.text, escaped, Bool.false_eq_true, if_false, List.cons_append,
        List.nil_append]
      rw [unescape_bare (first.char_ne escaped), ih others]
      rfl

theorem glyphs_escaped (c : Char) (rest : Text) :
    glyphs ('\\' :: c :: rest) = .literal c :: glyphs rest := by
  simp [glyphs]

theorem glyphs_bare {c : Char} (noBackslash : c ≠ '\\') (rest : Text) :
    glyphs (c :: rest) = .ofChar c :: glyphs rest := by
  rw [glyphs]
  all_goals simp [noBackslash]

/-- A pattern has one element for each letter. -/
theorem glyphs_written {letters : List Letter}
    (faithful : ∀ letter ∈ letters, letter.Faithful) :
    glyphs (written letters) = letters.map Letter.glyph := by
  induction letters with
  | nil => rfl
  | cons letter letters ih =>
    have first : letter.Faithful := faithful letter List.mem_cons_self
    have others : ∀ other ∈ letters, other.Faithful := fun other member =>
      faithful other (List.mem_cons_of_mem _ member)
    rw [written_cons, List.map_cons]
    cases escaped : letter.escaped with
    | true =>
      simp only [Letter.text, Letter.glyph, escaped, if_true, List.cons_append, List.nil_append]
      rw [glyphs_escaped, ih others]
    | false =>
      simp only [Letter.text, Letter.glyph, escaped, Bool.false_eq_true, if_false,
        List.cons_append, List.nil_append]
      rw [glyphs_bare (first.char_ne escaped), ih others]

@[simp]
theorem Letter.char_glyph (letter : Letter) : letter.glyph.char = letter.char := by
  unfold glyph
  split
  · rfl
  · exact Glyph.char_ofChar letter.char

/-! ## The letters of an escaped text -/

/-- Whether an escaped text marks a character. -/
def needsEscape (literal : Bool) (c : Char) : Bool :=
  specials.contains c || (literal && isWildcard c)

/-- The letters of a text when its characters are looked at one by one. -/
def plainLetters (literal : Bool) (text : Text) : List Letter :=
  text.map fun c => ⟨c, needsEscape literal c⟩

/-- A letter behind a backslash. -/
def Letter.mark (letter : Letter) : Letter := { letter with escaped := true }

/-- The letters that `escape` writes.  The first letter of an operator word is marked too. -/
def escapeLetters (literal : Bool) (text : Text) : List Letter :=
  if operatorWords.contains text then (plainLetters literal text).modifyHead Letter.mark
  else plainLetters literal text

theorem written_plainLetters (literal : Bool) (text : Text) :
    written (plainLetters literal text) = text.flatMap (escapeChar (needsEscape literal)) := by
  induction text with
  | nil => rfl
  | cons c text ih =>
    rw [plainLetters, List.map_cons, written_cons, List.flatMap_cons]
    exact congrArg (escapeChar (needsEscape literal) c ++ ·) ih

theorem mem_operatorWords_iff {text : Text} :
    operatorWords.contains text = true ↔
      text = ['A', 'N', 'D'] ∨ text = ['O', 'R'] ∨ text = ['N', 'O', 'T'] := by
  simp [operatorWords]

theorem escape_eq_written (literal : Bool) (text : Text) :
    escape literal text = written (escapeLetters literal text) := by
  have marked : (fun c => specials.contains c || (literal && isWildcard c) ||
      ([] : List Char).contains c) = needsEscape literal := by
    funext c
    simp [needsEscape]
  rw [escape, escapeWith, marked, escapeLetters]
  split
  · rename_i operator
    rcases mem_operatorWords_iff.1 operator with rfl | rfl | rfl <;> cases literal <;> rfl
  · exact (written_plainLetters literal text).symm

@[simp]
theorem content_plainLetters (literal : Bool) (text : Text) :
    content (plainLetters literal text) = text := by
  rw [content, plainLetters, List.map_map]
  exact List.map_id text

@[simp]
theorem content_escapeLetters (literal : Bool) (text : Text) :
    content (escapeLetters literal text) = text := by
  rw [escapeLetters]
  split
  · rename_i operator
    rcases mem_operatorWords_iff.1 operator with rfl | rfl | rfl <;> rfl
  · exact content_plainLetters literal text

/-- What an escaped text leaves bare needs no escape, and what it marks needs one or begins an
operator word. -/
theorem mem_escapeLetters {literal : Bool} {text : Text} {letter : Letter}
    (member : letter ∈ escapeLetters literal text) :
    (letter.escaped = needsEscape literal letter.char) ∨
      (letter.escaped = true ∧ letter.char ∈ ['A', 'O', 'N']) := by
  have plain (other : Letter) (inside : other ∈ plainLetters literal text) :
      other.escaped = needsEscape literal other.char := by
    rcases List.mem_map.1 inside with ⟨c, _, rfl⟩
    rfl
  rw [escapeLetters] at member
  split at member
  · rename_i operator
    rcases mem_operatorWords_iff.1 operator with rfl | rfl | rfl <;>
      simp only [plainLetters, List.map_cons, List.map_nil, List.modifyHead_cons, List.mem_cons,
        List.not_mem_nil, or_false] at member
    · rcases member with rfl | rfl | rfl
      · exact Or.inr ⟨rfl, by simp [Letter.mark]⟩
      · exact Or.inl rfl
      · exact Or.inl rfl
    · rcases member with rfl | rfl
      · exact Or.inr ⟨rfl, by simp [Letter.mark]⟩
      · exact Or.inl rfl
    · rcases member with rfl | rfl | rfl
      · exact Or.inr ⟨rfl, by simp [Letter.mark]⟩
      · exact Or.inl rfl
      · exact Or.inl rfl
  · exact Or.inl (plain letter member)

theorem needsEscape_of_bare {literal : Bool} {text : Text} {letter : Letter}
    (member : letter ∈ escapeLetters literal text) (bare : letter.escaped = false) :
    needsEscape literal letter.char = false := by
  rcases mem_escapeLetters member with same | ⟨escaped, _⟩
  · rw [← same, bare]
  · rw [bare] at escaped
    cases escaped

/-- A marked letter of an escaped text is special, a wildcard, or the first letter of an operator
word. -/
theorem char_mem_of_escaped {literal : Bool} {text : Text} {letter : Letter}
    (member : letter ∈ escapeLetters literal text) (escaped : letter.escaped = true) :
    letter.char ∈ specials ++ wildcards ++ ['A', 'O', 'N'] := by
  rcases mem_escapeLetters member with same | ⟨_, first⟩
  · rw [escaped] at same
    have special : needsEscape literal letter.char = true := same.symm
    simp only [needsEscape, isWildcard, Bool.or_eq_true, Bool.and_eq_true,
      List.contains_iff_mem] at special
    rw [List.append_assoc, List.mem_append, List.mem_append]
    rcases special with special | ⟨_, wildcard⟩
    · exact Or.inl special
    · exact Or.inr (Or.inl wildcard)
  · exact List.mem_append_right _ first

theorem faithful_escapeLetters {literal : Bool} {text : Text} :
    ∀ letter ∈ escapeLetters literal text, letter.Faithful := by
  intro letter member
  cases escaped : letter.escaped with
  | true =>
    have listed := char_mem_of_escaped member escaped
    simp only [Letter.Faithful, escaped, if_true]
    intro code
    rw [code] at listed
    exact absurd listed (by decide)
  | false =>
    have bare := needsEscape_of_bare member escaped
    simp only [Letter.Faithful, escaped, Bool.false_eq_true, if_false]
    intro backslash
    rw [backslash] at bare
    exact absurd bare (by cases literal <;> decide)

/-- Unescaping undoes escaping. -/
theorem unescape_escape (literal : Bool) (text : Text) (position : Nat) :
    unescape position (escape literal text) = .ok text := by
  rw [escape_eq_written, unescape_written faithful_escapeLetters, content_escapeLetters]

theorem escape_injective (literal : Bool) : Function.Injective (escape literal) := by
  intro first second same
  have firstRead := unescape_escape literal first 0
  rw [same, unescape_escape literal second 0] at firstRead
  exact (Except.ok.inj firstRead).symm

@[simp]
theorem escape_eq_nil_iff {literal : Bool} {text : Text} :
    escape literal text = [] ↔ text = [] := by
  constructor
  · intro empty
    exact escape_injective literal (empty.trans (by cases literal <;> rfl))
  · rintro rfl
    cases literal <;> rfl

end AlarmQuery
