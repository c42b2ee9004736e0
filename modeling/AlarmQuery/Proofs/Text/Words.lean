import AlarmQuery.Text.Blank
import Mathlib.Data.List.TakeWhile

/-!
# Words and trimmed texts

Words end at every blank character, from which the other facts about them follow.  A text without
the blank characters around it has the same words.
-/

namespace AlarmQuery

namespace Text

/-! ## Words -/

theorem words_blank {c : Char} (blank : isBlank c = true) (rest : Text) :
    words (c :: rest) = words rest := by
  rw [words, if_pos blank]

theorem words_of_beginsWord {c : Char} (letter : isBlank c = false) {rest : Text}
    (begins : beginsWord rest = true) : words (c :: rest) = extendFirst c (words rest) := by
  rw [words, if_neg (by simp [letter]), if_pos begins]

theorem words_of_not_beginsWord {c : Char} (letter : isBlank c = false) {rest : Text}
    (ends : beginsWord rest = false) : words (c :: rest) = [c] :: words rest := by
  rw [words, if_neg (by simp [letter]), if_neg (by simp [ends])]

theorem exists_of_beginsWord {text : Text} (begins : beginsWord text = true) :
    ∃ word others, words text = word :: others := by
  cases text with
  | nil => cases begins
  | cons c rest =>
    apply List.exists_cons_of_ne_nil
    intro empty
    have blank := words_eq_nil_iff.1 empty c List.mem_cons_self
    simp [beginsWord, blank] at begins

/-- A word ends at a blank character. -/
theorem words_append_blank {c : Char} (blank : isBlank c = true) (before after : Text) :
    words (before ++ c :: after) = words before ++ words after := by
  induction before with
  | nil => exact words_blank blank after
  | cons first rest ih =>
    rw [List.cons_append]
    cases letter : isBlank first with
    | true => rw [words_blank letter, words_blank letter, ih]
    | false =>
      cases rest with
      | nil =>
        rw [List.nil_append, words_of_not_beginsWord letter (by simp [beginsWord, blank]),
          words_of_not_beginsWord letter rfl, words_blank blank]
        rfl
      | cons second rest =>
        have same : beginsWord (second :: rest ++ c :: after) = beginsWord (second :: rest) := rfl
        cases begins : beginsWord (second :: rest) with
        | true =>
          rcases exists_of_beginsWord begins with ⟨word, others, shape⟩
          rw [words_of_beginsWord letter (same.trans begins), words_of_beginsWord letter begins, ih,
            shape]
          rfl
        | false =>
          rw [words_of_not_beginsWord letter (same.trans begins),
            words_of_not_beginsWord letter begins, ih]
          rfl

theorem words_isBlank_append {gap : Text} (blank : gap.IsBlank) (rest : Text) :
    words (gap ++ rest) = words rest := by
  induction gap with
  | nil => rfl
  | cons c gap ih =>
    rw [List.cons_append, words_blank (blank c List.mem_cons_self),
      ih fun c member => blank c (List.mem_cons_of_mem _ member)]

theorem words_append_isBlank {gap : Text} (blank : gap.IsBlank) (nonempty : gap ≠ [])
    (before after : Text) : words (before ++ gap ++ after) = words before ++ words after := by
  rcases List.exists_cons_of_ne_nil nonempty with ⟨c, gap, rfl⟩
  rw [List.append_assoc, List.cons_append, words_append_blank (blank c List.mem_cons_self),
    words_isBlank_append fun c member => blank c (List.mem_cons_of_mem _ member)]

/-- Blank characters apart, a text has its words one behind the other. -/
theorem flatten_words (text : Text) : (words text).flatten = text.filter fun c => !isBlank c := by
  induction text with
  | nil => rfl
  | cons c rest ih =>
    cases letter : isBlank c with
    | true =>
      rw [words_blank letter, ih, List.filter_cons_of_neg (by simp [letter])]
    | false =>
      rw [List.filter_cons_of_pos (by simp [letter]), ← ih]
      cases begins : beginsWord rest with
      | true =>
        rcases exists_of_beginsWord begins with ⟨word, others, shape⟩
        rw [words_of_beginsWord letter begins, shape]
        rfl
      | false =>
        rw [words_of_not_beginsWord letter begins]
        rfl

/-- No word is empty. -/
theorem ne_nil_of_mem_words {text word : Text} (ofText : word ∈ words text) : word ≠ [] := by
  induction text with
  | nil => cases ofText
  | cons c rest ih =>
    cases letter : isBlank c with
    | true =>
      rw [words_blank letter] at ofText
      exact ih ofText
    | false =>
      cases begins : beginsWord rest with
      | true =>
        rcases exists_of_beginsWord begins with ⟨first, others, shape⟩
        rw [words_of_beginsWord letter begins, shape] at ofText
        rcases List.mem_cons.1 ofText with rfl | later
        · exact List.cons_ne_nil _ _
        · exact ih (by rw [shape]; exact List.mem_cons_of_mem _ later)
      | false =>
        rw [words_of_not_beginsWord letter begins] at ofText
        rcases List.mem_cons.1 ofText with rfl | later
        · exact List.cons_ne_nil _ _
        · exact ih later

theorem exists_word_of_mem {text : Text} {c : Char} (member : c ∈ text)
    (letter : isBlank c = false) : ∃ word ∈ words text, c ∈ word := by
  rw [← List.mem_flatten, flatten_words, List.mem_filter]
  exact ⟨member, by simp [letter]⟩

theorem mem_of_mem_words {text word : Text} (ofText : word ∈ words text) {c : Char}
    (inside : c ∈ word) : c ∈ text := by
  have member : c ∈ (words text).flatten := List.mem_flatten.2 ⟨word, ofText, inside⟩
  rw [flatten_words] at member
  exact (List.mem_filter.1 member).1

/-! ## Trimmed texts -/

/-- A text neither begins nor ends with a blank character. -/
structure IsTrimmed (text : Text) : Prop where
  first : ∀ c ∈ text.head?, isBlank c = false
  last : ∀ c ∈ text.getLast?, isBlank c = false

theorem dropWhile_of_isBlank {blank : Text} (all : blank.IsBlank) {text : Text}
    (first : ∀ c ∈ text.head?, isBlank c = false) :
    (blank ++ text).dropWhile isBlank = text := by
  rw [List.dropWhile_append_of_pos all]
  cases text with
  | nil => rfl
  | cons c rest => rw [List.dropWhile_cons_of_neg (by simp [first c rfl])]

theorem head?_dropWhile_isBlank {text : Text} :
    ∀ c ∈ (text.dropWhile isBlank).head?, isBlank c = false := by
  intro c first
  have := List.head?_dropWhile_not isBlank text
  rw [Option.mem_def.1 first] at this
  exact this

/-- What stands between blank characters is what is left of a text when they are trimmed. -/
theorem trim_eq {before text after : Text} (blankBefore : before.IsBlank)
    (trimmed : text.IsTrimmed) (blankAfter : after.IsBlank) :
    trim (before ++ text ++ after) = text := by
  cases text with
  | nil =>
    have all : ∀ c ∈ before ++ [] ++ after, isBlank c = true := by
      simpa [or_imp, forall_and] using ⟨blankBefore, blankAfter⟩
    rw [trim, trimStart, List.dropWhile_eq_nil_iff.2 all]
    rfl
  | cons c rest =>
    have begun : trimStart (before ++ (c :: rest) ++ after) = (c :: rest) ++ after := by
      rw [trimStart, List.append_assoc]
      exact dropWhile_of_isBlank blankBefore fun first here => trimmed.first first here
    have reversed : IsBlank after.reverse := fun c member =>
      blankAfter c (List.mem_reverse.1 member)
    rw [trim, begun, trimEnd, List.reverse_append, dropWhile_of_isBlank reversed,
      List.reverse_reverse]
    rw [List.head?_reverse]
    exact trimmed.last

/-- A text is its trimmed text between blank characters. -/
theorem exists_trim (text : Text) :
    ∃ before after, before.IsBlank ∧ after.IsBlank ∧ (trim text).IsTrimmed ∧
      text = before ++ trim text ++ after := by
  have blank {text : Text} : IsBlank (text.takeWhile isBlank) := fun _ member =>
    List.mem_takeWhile_imp member
  have whole : trimStart text =
      trim text ++ ((trimStart text).reverse.takeWhile isBlank).reverse := by
    rw [trim, trimEnd, ← List.reverse_append, List.takeWhile_append_dropWhile,
      List.reverse_reverse]
  refine ⟨text.takeWhile isBlank, ((trimStart text).reverse.takeWhile isBlank).reverse, blank,
    fun c member => blank c (List.mem_reverse.1 member), ⟨?_, ?_⟩, ?_⟩
  · intro c first
    have begun : c ∈ (trimStart text).head? := by
      rw [whole, List.head?_append, Option.mem_def.1 first]
      rfl
    exact head?_dropWhile_isBlank c begun
  · intro c last
    rw [trim, trimEnd, List.getLast?_reverse] at last
    exact head?_dropWhile_isBlank c last
  · rw [List.append_assoc, ← whole, trimStart, List.takeWhile_append_dropWhile]

@[simp]
theorem trim_of_isTrimmed {text : Text} (trimmed : text.IsTrimmed) : trim text = text := by
  have blank : IsBlank [] := fun _ member => absurd member List.not_mem_nil
  simpa using trim_eq blank trimmed blank

theorem isTrimmed_trim (text : Text) : (trim text).IsTrimmed := by
  rcases exists_trim text with ⟨_, _, _, _, trimmed, _⟩
  exact trimmed

/-- Trimming a text keeps its words. -/
@[simp]
theorem words_trim (text : Text) : words (trim text) = words text := by
  rcases exists_trim text with ⟨before, after, blankBefore, blankAfter, _, whole⟩
  conv => rhs; rw [whole, List.append_assoc, words_isBlank_append blankBefore]
  cases after with
  | nil => rw [List.append_nil]
  | cons c after =>
    have others : IsBlank after := fun c member => blankAfter c (List.mem_cons_of_mem _ member)
    rw [words_append_blank (blankAfter c List.mem_cons_self), words_eq_nil_iff.2 others,
      List.append_nil]

/-- Two texts with a blank character between them are trimmed each for itself. -/
theorem trim_append {first second : Text} (nonempty : trim first ≠ []) {c : Char}
    (blank : isBlank c = true) :
    trim (first ++ c :: second) = trim first ∨
      ∃ gap : Text, gap ≠ [] ∧ gap.IsBlank ∧
        trim (first ++ c :: second) = trim first ++ gap ++ trim second := by
  rcases exists_trim first with ⟨before, after, blankBefore, blankAfter, trimmedFirst, firstWhole⟩
  rcases exists_trim second with ⟨before', after', blankBefore', blankAfter', trimmed, whole⟩
  have whole : first ++ c :: second =
      before ++ (trim first ++ (after ++ c :: before') ++ trim second) ++ after' := by
    conv => lhs; rw [firstWhole, whole]
    simp
  have blankGap : IsBlank (after ++ c :: before') := by
    intro other member
    rcases List.mem_append.1 member with inside | inside
    · exact blankAfter other inside
    · rcases List.mem_cons.1 inside with rfl | inside
      · exact blank
      · exact blankBefore' other inside
  rw [whole]
  by_cases empty : trim second = []
  · left
    have blankEnd : IsBlank ((after ++ c :: before') ++ after') := by
      intro other member
      rcases List.mem_append.1 member with inside | inside
      · exact blankGap other inside
      · exact blankAfter' other inside
    rw [empty, List.append_nil, List.append_assoc, List.append_assoc, ← List.append_assoc before]
    exact trim_eq blankBefore trimmedFirst blankEnd
  · right
    refine ⟨after ++ c :: before', by simp, blankGap, ?_⟩
    apply trim_eq blankBefore _ blankAfter'
    constructor
    · intro other here
      rw [List.append_assoc, List.head?_append] at here
      cases begun : (trim first).head? with
      | none => exact absurd (List.head?_eq_none_iff.1 begun) nonempty
      | some c =>
        rw [begun] at here
        exact trimmedFirst.first other (begun.trans here)
    · intro other here
      rw [List.getLast?_append] at here
      cases ended : (trim second).getLast? with
      | none => exact absurd (List.getLast?_eq_none_iff.1 ended) empty
      | some c =>
        rw [ended] at here
        exact trimmed.last other (ended.trans here)

end Text

end AlarmQuery
