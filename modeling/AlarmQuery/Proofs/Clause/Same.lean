import AlarmQuery.Proofs.Clause.Tokens

/-!
# What the text of a clause says

Clauses are compared by their texts.  A text can be taken apart again, so clauses are the same
exactly when they agree in everything but the flag for literal wildcards, and in that too where
there are wildcards.
-/

namespace AlarmQuery

/-! ## Escaped texts with and without literal wildcards -/

theorem escape_true_eq_false {text : Text} (plain : text.any isWildcard = false) :
    escape true text = escape false text := by
  have letters : plainLetters true text = plainLetters false text := by
    apply List.map_congr_left
    intro c member
    have noWildcard := Bool.eq_false_iff.2 (List.any_eq_false.1 plain c member)
    simp [needsEscape, noWildcard]
  rw [escape_eq_written, escape_eq_written, escapeLetters, escapeLetters, letters]

theorem any_isWildcard_of_escape_true_eq_false {text : Text}
    (same : escape true text = escape false text) : text.any isWildcard = false := by
  have patterns := congrArg glyphs same
  rw [glyphs_escape, glyphs_escape, patternOf_true] at patterns
  exact patternOf_false_eq_iff.1 patterns.symm

/-- Escaped texts are equal when the texts are and when the flag for wildcards is, or does not
matter. -/
theorem escape_eq_escape_iff {one two : Bool} {first second : Text} :
    escape one first = escape two second ↔
      first = second ∧ (one = two ∨ first.any isWildcard = false) := by
  constructor
  · intro same
    have read := unescape_escape one first 0
    rw [same, unescape_escape two second 0] at read
    obtain rfl := Except.ok.inj read
    refine ⟨rfl, ?_⟩
    cases one with
    | true =>
      cases two with
      | true => exact Or.inl rfl
      | false => exact Or.inr (any_isWildcard_of_escape_true_eq_false same)
    | false =>
      cases two with
      | true => exact Or.inr (any_isWildcard_of_escape_true_eq_false same.symm)
      | false => exact Or.inl rfl
  · rintro ⟨rfl, rfl | plain⟩
    · rfl
    · cases one with
      | true =>
        cases two with
        | true => rfl
        | false => exact escape_true_eq_false plain
      | false =>
        cases two with
        | true => exact (escape_true_eq_false plain).symm
        | false => rfl

/-! ## Escaped texts in front of others -/

/-- An escaped text ends in front of the first special character without a mark. -/
theorem escape_append_inj {delimiter : Char} (special : delimiter ∈ specials)
    (noBackslash : delimiter ≠ '\\') {one two : Bool} {first second rest others : Text}
    (same : escape one first ++ delimiter :: rest = escape two second ++ delimiter :: others) :
    escape one first = escape two second ∧ rest = others := by
  have read := readDelimited_escape special noBackslash
  have firstRead := read one first rest
  rw [same, read two second others] at firstRead
  exact Prod.mk.inj (Option.some.inj firstRead).symm

theorem escape_ne_bracket (literal : Bool) (text rest : Text) :
    escape literal text ≠ '[' :: rest := by
  intro same
  rw [escape_eq_written] at same
  cases spelled : escapeLetters literal text with
  | nil =>
    rw [spelled] at same
    cases same
  | cons letter letters =>
    have member : letter ∈ escapeLetters literal text := by
      rw [spelled]
      exact List.mem_cons_self
    rw [spelled, written_cons, Letter.text] at same
    cases escaped : letter.escaped with
    | true =>
      rw [escaped] at same
      cases same
    | false =>
      rw [escaped] at same
      have bracket : letter.char = '[' := (List.cons.inj same).1
      have bare := needsEscape_of_bare member escaped
      rw [bracket] at bare
      exact absurd bare (by cases literal <;> decide)

namespace Clause

/-! ## Contents -/

/-- Whether there is a wildcard in the content of a clause. -/
def hasWildcard (clause : Clause) : Bool :=
  clause.term.any isWildcard || clause.upTo.any isWildcard

theorem isRange_eq_false_iff {clause : Clause} : clause.isRange = false ↔ clause.upTo = [] := by
  rw [isRange, Bool.not_eq_false', List.isEmpty_iff]

theorem conditionText_of_range {clause : Clause} (range : clause.isRange = true) :
    clause.conditionText = '[' :: '"' :: (escape clause.literal clause.term ++ '"' ::
      (" TO \"".toList ++ (escape clause.literal clause.upTo ++ '"' :: [']']))) := by
  simp [conditionText, range]

theorem conditionText_ne {first second : Clause} (term : first.isRange = false)
    (range : second.isRange = true) : first.conditionText ≠ second.conditionText := by
  rw [conditionText_of_term term, conditionText_of_range range]
  exact escape_ne_bracket _ _ _

theorem upTo_ne {first second : Clause} (term : first.isRange = false)
    (range : second.isRange = true) : first.upTo ≠ second.upTo := by
  rw [isRange_eq_false_iff.1 term]
  intro same
  rw [isRange_eq_false_iff.2 same.symm] at range
  cases range

/-- The content of a clause can be read off its text. -/
theorem conditionText_eq_iff {first second : Clause} :
    first.conditionText = second.conditionText ↔
      first.term = second.term ∧ first.upTo = second.upTo ∧
        (first.literal = second.literal ∨ first.hasWildcard = false) := by
  cases firstRange : first.isRange with
  | false =>
    cases secondRange : second.isRange with
    | false =>
      have firstOpen := isRange_eq_false_iff.1 firstRange
      have plain : first.hasWildcard = first.term.any isWildcard := by
        rw [hasWildcard, firstOpen]
        simp
      rw [conditionText_of_term firstRange, plain, conditionText_of_term secondRange,
        escape_eq_escape_iff, firstOpen, isRange_eq_false_iff.1 secondRange]
      simp
    | true =>
      constructor
      · exact fun same => absurd same (conditionText_ne firstRange secondRange)
      · exact fun ⟨_, same, _⟩ => absurd same (upTo_ne firstRange secondRange)
  | true =>
    cases secondRange : second.isRange with
    | false =>
      constructor
      · exact fun same => absurd same.symm (conditionText_ne secondRange firstRange)
      · exact fun ⟨_, same, _⟩ => absurd same.symm (upTo_ne secondRange firstRange)
    | true =>
      have flags : ((first.literal = second.literal ∨ first.term.any isWildcard = false) ∧
          (first.literal = second.literal ∨ first.upTo.any isWildcard = false)) ↔
            (first.literal = second.literal ∨ first.hasWildcard = false) := by
        rw [hasWildcard, Bool.or_eq_false_iff, or_and_left]
      rw [conditionText_of_range firstRange, conditionText_of_range secondRange]
      constructor
      · intro same
        have enclosed := (List.cons.inj (List.cons.inj same).2).2
        rcases escape_append_inj (by decide) (by decide) enclosed with ⟨terms, behind⟩
        have bounds := List.append_cancel_left behind
        rcases escape_append_inj (by decide) (by decide) bounds with ⟨upTos, _⟩
        rcases escape_eq_escape_iff.1 terms with ⟨term, termFlag⟩
        rcases escape_eq_escape_iff.1 upTos with ⟨upTo, upToFlag⟩
        exact ⟨term, upTo, flags.1 ⟨termFlag, upToFlag⟩⟩
      · rintro ⟨term, upTo, flag⟩
        rcases flags.2 flag with ⟨termFlag, upToFlag⟩
        rw [escape_eq_escape_iff.2 ⟨term, termFlag⟩, escape_eq_escape_iff.2 ⟨upTo, upToFlag⟩]

/-! ## Whole clauses -/

theorem operator_append_inj {one two : Negation} {rest others : Text}
    (same : one.occur.operator ++ rest = two.occur.operator ++ others) :
    one = two ∧ rest = others := by
  cases one <;> cases two <;> simp [Negation.occur, Occur.operator] at same
  · exact ⟨rfl, same⟩
  · exact ⟨rfl, same⟩

/-- Clauses are the same when they agree in all that matters. -/
theorem same_iff {first second : Clause} :
    Same first second ↔ first.negation = second.negation ∧ first.field = second.field ∧
      first.term = second.term ∧ first.upTo = second.upTo ∧
        (first.literal = second.literal ∨ first.hasWildcard = false) := by
  rw [← conditionText_eq_iff, Same, text, text, List.append_assoc, List.append_assoc]
  constructor
  · intro same
    rcases operator_append_inj same with ⟨negation, behind⟩
    rcases escape_append_inj (by decide) (by decide) behind with ⟨fields, conditions⟩
    exact ⟨negation, escape_injective true fields, conditions⟩
  · rintro ⟨negation, field, condition⟩
    rw [negation, field, condition]

theorem any_isWildcard_eq_false_iff {text : Text} :
    text.any isWildcard = false ↔ '*' ∉ text ∧ '?' ∉ text := by
  rw [List.any_eq_false]
  constructor
  · intro plain
    exact ⟨fun star => plain '*' star rfl, fun mark => plain '?' mark rfl⟩
  · rintro ⟨noStar, noMark⟩ c member wildcard
    rcases mem_wildcards_iff.1 wildcard with rfl | rfl
    · exact noStar member
    · exact noMark member

/-- The upper bound of a clause that is no range has no wildcards, since it is empty. -/
theorem hasWildcard_eq_false_iff {clause : Clause} :
    clause.hasWildcard = false ↔ ('*' ∉ clause.term ∧ '?' ∉ clause.term) ∧
      (clause.isRange = true → '*' ∉ clause.upTo ∧ '?' ∉ clause.upTo) := by
  rw [hasWildcard, Bool.or_eq_false_iff, any_isWildcard_eq_false_iff, any_isWildcard_eq_false_iff]
  refine and_congr_right fun _ => ?_
  cases range : clause.isRange with
  | true => exact ⟨fun plain _ => plain, fun plain => plain rfl⟩
  | false =>
    rw [isRange_eq_false_iff.1 range]
    exact ⟨fun _ impossible => absurd impossible Bool.false_ne_true,
      fun _ => ⟨List.not_mem_nil, List.not_mem_nil⟩⟩

/-- Clauses are the same exactly when all their parts are, whatever texts these are, but for a flag
that says how wildcards are meant where there are none. -/
theorem same_iff_parts {first second : Clause} :
    Same first second ↔ first.negation = second.negation ∧ first.field = second.field ∧
      first.isRange = second.isRange ∧ first.term = second.term ∧ first.upTo = second.upTo ∧
        (first.literal = second.literal ∨ (('*' ∉ first.term ∧ '?' ∉ first.term) ∧
          (first.isRange = true → '*' ∉ first.upTo ∧ '?' ∉ first.upTo))) := by
  rw [same_iff, hasWildcard_eq_false_iff]
  constructor
  · rintro ⟨negation, field, term, upTo, flag⟩
    have ranges : first.isRange = second.isRange := by
      rw [isRange, isRange, upTo]
    exact ⟨negation, field, ranges, term, upTo, flag⟩
  · rintro ⟨negation, field, _, term, upTo, flag⟩
    exact ⟨negation, field, term, upTo, flag⟩

/-- A term that looks like a range is none. -/
example : ¬ Same ⟨.is, ['f'], "[\"a\" TO \"b\"]".toList, [], true⟩
    ⟨.is, ['f'], ['a'], ['b'], true⟩ := by
  decide

end Clause

end AlarmQuery
