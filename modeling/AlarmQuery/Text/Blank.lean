import AlarmQuery.Text.Basic

/-!
# Blank characters

The characters with the Unicode property White_Space, and what they separate.
`words_eq_nil_iff` says that exactly the blank texts have no word.
-/

namespace AlarmQuery

/-- The twenty-five characters with the Unicode property White_Space. -/
def isBlank (c : Char) : Bool :=
  let code := c.toNat
  (0x09 ≤ code && code ≤ 0x0D) || code == 0x20 || code == 0x85 || code == 0xA0 ||
    code == 0x1680 || (0x2000 ≤ code && code ≤ 0x200A) || code == 0x2028 || code == 0x2029 ||
    code == 0x202F || code == 0x205F || code == 0x3000

namespace Text

/-- A text is blank when it has no character but blank ones. -/
def IsBlank (text : Text) : Prop := ∀ c ∈ text, isBlank c = true

instance (text : Text) : Decidable (IsBlank text) :=
  inferInstanceAs (Decidable (∀ c ∈ text, isBlank c = true))

/-- The text from its first character that is not blank. -/
def trimStart (text : Text) : Text := text.dropWhile isBlank

/-- The text up to its last character that is not blank. -/
def trimEnd (text : Text) : Text := (text.reverse.dropWhile isBlank).reverse

/-- The text without the blank characters around it. -/
def trim (text : Text) : Text := trimEnd (trimStart text)

/-- Puts a character in front of the first of some words. -/
def extendFirst (c : Char) : List Text → List Text
  | [] => [[c]]
  | word :: others => (c :: word) :: others

/-- Whether a text begins with a character that is not blank. -/
def beginsWord (text : Text) : Bool := text.head?.any fun c => !isBlank c

/-- The longest runs of characters that are not blank, in order. -/
def words : Text → List Text
  | [] => []
  | c :: rest =>
    if isBlank c then words rest
    else if beginsWord rest then extendFirst c (words rest)
    else [c] :: words rest

@[simp]
theorem extendFirst_ne_nil (c : Char) (others : List Text) : extendFirst c others ≠ [] := by
  cases others <;> simp [extendFirst]

/-- Exactly the blank texts have no word. -/
theorem words_eq_nil_iff {text : Text} : words text = [] ↔ IsBlank text := by
  induction text with
  | nil => simp [IsBlank, words]
  | cons c rest ih =>
    cases blank : isBlank c with
    | true =>
      rw [words, if_pos blank, ih]
      simp [IsBlank, blank]
    | false =>
      have : words (c :: rest) ≠ [] := by
        rw [words, if_neg (by simp [blank])]
        split <;> simp
      simp [IsBlank, this, blank]

end Text

end AlarmQuery
