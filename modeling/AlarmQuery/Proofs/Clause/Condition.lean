import AlarmQuery.Clause.OfQuery
import AlarmQuery.Proofs.Clause.Same

/-!
# What the content of a clause is read as

A range is read as a range.  The kind of any other content depends on its live wildcards, and the
clause that such a leaf is in a list says in its flag whether there were any.
-/

namespace AlarmQuery

/-! ## Escaped texts that are read -/

/-- Without its final star an escaped text reads as the text without it. -/
theorem unescape_dropLast_escape (beginning : Text) (position : Nat) :
    unescape position (escape false (beginning ++ ['*'])).dropLast = .ok beginning := by
  have noOperator : operatorWords.contains (beginning ++ ['*']) = false := by
    rw [Bool.eq_false_iff]
    intro operator
    rcases mem_operatorWords_iff.1 operator with same | same | same
    · have last := congrArg List.getLast? same
      simp at last
    · have last := congrArg List.getLast? same
      simp at last
    · have last := congrArg List.getLast? same
      simp at last
  have letters : escapeLetters false (beginning ++ ['*']) =
      plainLetters false beginning ++ [⟨'*', false⟩] := by
    rw [escapeLetters, noOperator]
    simp only [Bool.false_eq_true, if_false, plainLetters, List.map_append]
    rfl
  have faithful : ∀ letter ∈ plainLetters false beginning, letter.Faithful := by
    intro letter member
    have whole := @faithful_escapeLetters false (beginning ++ ['*'])
    rw [letters] at whole
    exact whole letter (List.mem_append_left _ member)
  have spelled : escape false (beginning ++ ['*']) =
      written (plainLetters false beginning) ++ ['*'] := by
    rw [escape_eq_written, letters, written_append]
    rfl
  rw [spelled, List.dropLast_concat, unescape_written faithful, content_plainLetters]

theorem livePattern?_escape (text : Text) : livePattern? (escape false text) = some text := by
  rw [livePattern?_eq_some_iff, glyphs_escape]
  refine ⟨fun glyph member => ?_, map_char_patternOf false text⟩
  rcases List.mem_map.1 member with ⟨c, _, rfl⟩
  exact Glyph.isLiteralWildcard_ofChar c

namespace Clause

/-! ## Conditions -/

/-- The condition that the content of a clause is. -/
def condition (clause : Clause) : Condition :=
  if clause.isRange then .range (some clause.term) (some clause.upTo) true true
  else if clause.term = ['*'] ∧ clause.literal = false then
    if clause.field = ['*'] then .everything else .wildcard ['*']
  else match wildcardUse (patternOf clause.literal clause.term) with
    | .none => .term clause.term
    | .finalStar => .startsWith clause.term.dropLast
    | .general => .wildcard (escape clause.literal clause.term)

/-- The leaf that a clause is, whatever its negation. -/
def leaf (clause : Clause) : Leaf := ⟨clause.field, clause.condition⟩

theorem rangeCondition_operand {clause : Clause} (range : clause.isRange = true)
    (lower upper : Nat) :
    rangeCondition ⟨escape clause.literal clause.term, true, lower⟩
      ⟨escape clause.literal clause.upTo, true, upper⟩ true true = .ok clause.condition := by
  rw [condition, if_pos range, rangeCondition, readBoundText, readBoundText]
  simp only [if_true, unescapeAt_escape]
  rfl

/-- A term is read by its live wildcards. -/
theorem wordCondition?_operand {clause : Clause} (term : clause.isRange = false)
    (lower upper position : Nat) :
    wordCondition? clause.field none ⟨clause.operand lower upper, position⟩ =
      some (.ok clause.condition) := by
  rw [operand, condition, term]
  simp only [Bool.false_eq_true, if_false, ofWord_escape]
  split
  · rfl
  · cases use : wildcardUse (patternOf clause.literal clause.term) with
    | none =>
      simp only [wordCondition?, unescapeAt_escape]
      rfl
    | finalStar =>
      rcases wildcardUse_patternOf_eq_finalStar_iff.1 use with ⟨live, final⟩
      rcases onlyFinalStar_iff.1 final with ⟨beginning, spelled, _⟩
      simp only [wordCondition?, live, spelled, unescapeAt, unescape_dropLast_escape,
        List.dropLast_concat]
      rfl
    | general => rfl

/-! ## Clauses again -/

/-- The clause matches every document, which is not a condition on its field. -/
def MatchesAll (clause : Clause) : Prop :=
  clause.isRange = false ∧ clause.field = ['*'] ∧ clause.term = ['*'] ∧ clause.literal = false

instance (clause : Clause) : Decidable clause.MatchesAll :=
  inferInstanceAs (Decidable (_ ∧ _ ∧ _ ∧ _))

/-- The clause as it comes back from a query: a term is literal unless it has live wildcards, and
the wildcards of a range are never literal. -/
def asRead (clause : Clause) : Clause :=
  { clause with literal := !clause.isRange && (clause.literal || !clause.term.any isWildcard) }

/-- A leaf is the clause that it was written for. -/
theorem ofLeaf_leaf {clause : Clause} (listable : ¬ clause.MatchesAll) :
    ofLeaf clause.negation clause.leaf = .ok clause.asRead := by
  rcases clause with ⟨negation, field, term, upTo, literal⟩
  cases range : isRange ⟨negation, field, term, upTo, literal⟩ with
  | true => simp [ofLeaf, leaf, condition, asRead, range]
  | false =>
    have upToNil : upTo = [] := isRange_eq_false_iff.1 range
    subst upToNil
    by_cases star : term = ['*'] ∧ literal = false
    · rcases star with ⟨rfl, rfl⟩
      have named : field ≠ ['*'] := fun same => listable ⟨rfl, same, rfl, rfl⟩
      simp only [leaf, condition, named]
      rfl
    · simp only [ofLeaf, leaf, condition, asRead, range, star, Bool.false_eq_true, if_false,
        Bool.not_false, Bool.true_and]
      cases use : wildcardUse (patternOf literal term) with
      | none =>
        have flag : (literal || !term.any isWildcard) = true := by
          rcases wildcardUse_patternOf_eq_none_iff.1 use with rfl | plain
          · rfl
          · simp [plain]
        rw [flag]
      | finalStar =>
        rcases wildcardUse_patternOf_eq_finalStar_iff.1 use with ⟨rfl, final⟩
        rcases onlyFinalStar_iff.1 final with ⟨beginning, rfl, plain⟩
        have wild : (beginning ++ ['*']).any isWildcard = true := by
          rw [List.any_append]
          exact Bool.or_true _
        simp only [List.dropLast_concat, plain, wild]
        rfl
      | general =>
        have live : ¬(literal = true ∨ term.any isWildcard = false) := by
          rw [← wildcardUse_patternOf_eq_none_iff, use]
          exact WildcardUse.noConfusion
        rw [not_or, Bool.not_eq_true, Bool.not_eq_false] at live
        rcases live with ⟨rfl, wild⟩
        simp only [livePattern?_escape, wild]
        rfl

theorem ofLeaf_leaf_of_matchesAll {clause : Clause} (all : clause.MatchesAll)
    (negation : Negation) : ofLeaf negation clause.leaf = .error (.kind (.leaf clause.leaf)) := by
  rcases all with ⟨term, field, star, live⟩
  have everything : clause.leaf = ⟨clause.field, .everything⟩ := by
    rw [leaf, condition, term, star, live, if_neg Bool.false_ne_true, if_pos ⟨rfl, rfl⟩,
      if_pos field]
  rw [everything]
  rfl

@[simp]
theorem hasWildcard_asRead (clause : Clause) : clause.asRead.hasWildcard = clause.hasWildcard := rfl

/-- What comes back is the same clause, unless it is a range with literal wildcards. -/
theorem same_asRead_iff {clause : Clause} :
    Same clause.asRead clause ↔
      (clause.isRange = true → clause.literal = false ∨ clause.hasWildcard = false) := by
  have changed : Same clause.asRead clause ↔
      (clause.asRead.literal = clause.literal ∨ clause.hasWildcard = false) := by
    rw [same_iff, hasWildcard_asRead]
    constructor
    · rintro ⟨_, _, _, _, flag⟩
      exact flag
    · intro flag
      exact ⟨rfl, rfl, rfl, rfl, flag⟩
  rw [changed, asRead]
  cases range : clause.isRange with
  | true => cases clause.literal <;> simp
  | false =>
    have terms : clause.hasWildcard = clause.term.any isWildcard := by
      rw [hasWildcard, isRange_eq_false_iff.1 range]
      simp
    rw [terms]
    cases clause.literal <;> cases clause.term.any isWildcard <;> simp

/-! ## Supported clauses -/

/-- A clause that a query can hold without a change. -/
structure Supported (clause : Clause) : Prop extends Readable clause where
  listable : ¬ clause.MatchesAll
  /-- The wildcards of a range cannot be literal. -/
  live : clause.isRange = true → clause.literal = false ∨ clause.hasWildcard = false

theorem supported_iff {clause : Clause} :
    clause.Supported ↔ (clause.field ≠ [] ∧ Unbroken clause.field ∧
      (clause.isRange = false → clause.term ≠ [] ∧ Unbroken clause.term)) ∧
      ¬ clause.MatchesAll ∧
        (clause.isRange = true → clause.literal = false ∨ clause.hasWildcard = false) := by
  constructor
  · intro supported
    exact ⟨⟨supported.named, supported.field, supported.content⟩, supported.listable,
      supported.live⟩
  · rintro ⟨⟨named, field, content⟩, listable, live⟩
    exact ⟨⟨named, field, content⟩, listable, live⟩

instance (clause : Clause) : Decidable clause.Supported := decidable_of_iff _ supported_iff.symm

theorem Supported.same_asRead {clause : Clause} (supported : clause.Supported) :
    Same clause.asRead clause :=
  same_asRead_iff.2 supported.live

end Clause

end AlarmQuery
