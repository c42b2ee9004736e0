import AlarmQuery.Text.Escape

/-!
# Wildcard patterns

A word of a query is a pattern: a sequence of literal characters and of wildcards.  A backslash
makes the next character a literal, whatever it is.
-/

namespace AlarmQuery

/-- One element of a pattern. -/
inductive Glyph
  /-- This very character. -/
  | literal (c : Char)
  /-- Any one character, written `?`. -/
  | anyOne
  /-- Any run of characters, written `*`. -/
  | anyMany
deriving DecidableEq, Repr

namespace Glyph

/-- What a character that no backslash precedes stands for. -/
def ofChar (c : Char) : Glyph :=
  if c = '*' then .anyMany else if c = '?' then .anyOne else .literal c

/-- The character that is written for an element. -/
def char : Glyph → Char
  | .literal c => c
  | .anyOne => '?'
  | .anyMany => '*'

/-- Whether the element is a wildcard character that stands for itself. -/
def isLiteralWildcard : Glyph → Bool
  | .literal c => isWildcard c
  | _ => false

@[simp]
theorem char_ofChar (c : Char) : (ofChar c).char = c := by
  unfold ofChar
  split
  · simp [char, *]
  · split <;> simp [char, *]

/-- Read without a backslash, a wildcard character is never a literal. -/
@[simp]
theorem isLiteralWildcard_ofChar (c : Char) : (ofChar c).isLiteralWildcard = false := by
  unfold ofChar
  split
  · rfl
  · split
    · rfl
    · simp_all [isLiteralWildcard, isWildcard, wildcards]

end Glyph

/-- The elements of a pattern as it is written.  A backslash at the very end stands for itself. -/
def glyphs : Text → List Glyph
  | [] => []
  | ['\\'] => [.literal '\\']
  | '\\' :: c :: rest => .literal c :: glyphs rest
  | c :: rest => Glyph.ofChar c :: glyphs rest

/-- How many wildcards a word has, as far as its kind depends on it. -/
inductive WildcardUse
  /-- Every element is a literal. -/
  | none
  /-- The only wildcard is a `*` at the end. -/
  | finalStar
  /-- Anything else. -/
  | general
deriving DecidableEq, Repr

/-- The wildcards of a sequence of elements. -/
def wildcardUse : List Glyph → WildcardUse
  | [] => .none
  | [.anyMany] => .finalStar
  | .literal _ :: rest => wildcardUse rest
  | _ :: _ => .general

/-- A pattern as plain text with all its wildcards live, if none of them is a literal. -/
def livePattern? (pattern : Text) : Option Text :=
  if (glyphs pattern).any Glyph.isLiteralWildcard then none
  else some ((glyphs pattern).map Glyph.char)

theorem livePattern?_eq_some_iff {pattern term : Text} :
    livePattern? pattern = some term ↔
      (∀ glyph ∈ glyphs pattern, glyph.isLiteralWildcard = false) ∧
        (glyphs pattern).map Glyph.char = term := by
  simp [livePattern?]

end AlarmQuery
