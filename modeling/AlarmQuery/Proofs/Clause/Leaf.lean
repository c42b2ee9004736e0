import AlarmQuery.Proofs.Clause.Provenance
import AlarmQuery.Proofs.Clause.Tree
import AlarmQuery.Proofs.Token.Source

/-!
# Conditions that are clauses

A condition of a query that is a clause is read back from the text of this clause with the same
kind and content.  Only a range with an empty upper bound is not, since a clause with an empty upper
bound is no range.
-/

namespace AlarmQuery

/-! ## The same condition -/

/-- The text of a condition that is no range. -/
def Condition.text? : Condition → Option Text
  | .term text => some text
  | .wildcard pattern => some pattern
  | .startsWith beginning => some beginning
  | .regexp expression => some expression
  | .fuzzy text _ => some text
  | .range .. | .everything => none

/-- The conditions have the same kind and content.  Of a pattern, what it is read as counts. -/
def Condition.Alike : Condition → Condition → Prop
  | .wildcard pattern, .wildcard other => glyphs pattern = glyphs other
  | condition, other => condition = other

/-- The leaves have the same field and the same kind and content. -/
def Leaf.Alike (leaf other : Leaf) : Prop :=
  leaf.field = other.field ∧ leaf.condition.Alike other.condition

/-- Only a range is like a range. -/
theorem Condition.Alike.range_eq {lower upper : Option Text} {lowerInclusive upperInclusive : Bool}
    {other : Condition}
    (alike : (Condition.range lower upper lowerInclusive upperInclusive).Alike other) :
    other = .range lower upper lowerInclusive upperInclusive :=
  alike.symm

/-! ## Patterns that are terms -/

theorem Glyph.ofChar_char {glyph : Glyph} (live : glyph.isLiteralWildcard = false) :
    Glyph.ofChar glyph.char = glyph := by
  cases glyph with
  | literal c => exact Glyph.ofChar_of_not_isWildcard live
  | anyOne => rfl
  | anyMany => rfl

section

variable {pattern term : Text}

/-- A term is the pattern that it was taken from. -/
theorem patternOf_of_livePattern? (live : livePattern? pattern = some term) :
    patternOf false term = glyphs pattern := by
  rcases livePattern?_eq_some_iff.1 live with ⟨each, rfl⟩
  rw [patternOf, List.map_map]
  calc (glyphs pattern).map _ = (glyphs pattern).map id :=
        List.map_congr_left fun glyph member => Glyph.ofChar_char (each glyph member)
    _ = glyphs pattern := List.map_id _

theorem mem_of_mem_glyphs : ∀ c ∈ (glyphs pattern).map Glyph.char, c ∈ pattern := by
  fun_induction glyphs pattern with
  | case1 => exact fun _ absent => absurd absent List.not_mem_nil
  | case2 => exact fun _ member => member
  | case3 c rest ih =>
    intro other member
    rcases List.mem_cons.1 member with rfl | later
    · exact List.mem_cons_of_mem _ List.mem_cons_self
    · exact List.mem_cons_of_mem _ (List.mem_cons_of_mem _ (ih other later))
  | case4 c rest _ _ ih =>
    intro other member
    rcases List.mem_cons.1 member with rfl | later
    · rw [Glyph.char_ofChar]
      exact List.mem_cons_self
    · exact List.mem_cons_of_mem _ (ih other later)

theorem glyphs_ne_nil (nonempty : pattern ≠ []) : glyphs pattern ≠ [] := by
  fun_cases glyphs pattern with
  | case1 => exact absurd rfl nonempty
  | case2 => exact List.cons_ne_nil _ _
  | case3 => exact List.cons_ne_nil _ _
  | case4 => exact List.cons_ne_nil _ _

theorem term_eq_of_livePattern? (live : livePattern? pattern = some term) :
    term = (glyphs pattern).map Glyph.char :=
  (livePattern?_eq_some_iff.1 live).2.symm

theorem readable_of_livePattern? (live : livePattern? pattern = some term)
    (nonempty : pattern ≠ [])
    (unbroken : Unbroken pattern) : term ≠ [] ∧ Unbroken term := by
  rw [term_eq_of_livePattern? live]
  refine ⟨?_, fun c member => unbroken c (mem_of_mem_glyphs c member)⟩
  rw [Ne, List.map_eq_nil_iff]
  exact glyphs_ne_nil nonempty

end

/-! ## Where patterns come from -/

/-- What a word stands for is no range, and a pattern only when the word is one. -/
theorem cases_of_wordCondition? {field : Text} {slop : Option Text} {token : Placed Token}
    {condition : Condition} (read : wordCondition? field slop token = some (.ok condition)) :
    ((∀ pattern, condition ≠ .wildcard pattern) ∧
        ∀ lower upper one two, condition ≠ .range lower upper one two) ∨
      (field ≠ ['*'] ∧ condition = .wildcard ['*']) ∨
      ∃ pattern, token.value = .pattern pattern ∧ condition = .wildcard pattern := by
  rw [wordCondition?] at read
  split at read
  · have same := Except.ok.inj (Option.some.inj read)
    split at same
    · subst same
      exact Or.inl ⟨fun _ => Condition.noConfusion, fun _ _ _ _ => Condition.noConfusion⟩
    · rename_i other
      exact Or.inr (Or.inl ⟨other, same.symm⟩)
  · obtain rfl := Except.ok.inj (Option.some.inj read)
    exact Or.inl ⟨fun _ => Condition.noConfusion, fun _ _ _ _ => Condition.noConfusion⟩
  · rcases exists_of_map_eq_ok (Option.some.inj read) with ⟨text, _, rfl⟩
    cases slop with
    | none =>
      exact Or.inl ⟨fun _ => Condition.noConfusion, fun _ _ _ _ => Condition.noConfusion⟩
    | some number =>
      exact Or.inl ⟨fun _ => Condition.noConfusion, fun _ _ _ _ => Condition.noConfusion⟩
  · rcases exists_of_map_eq_ok (Option.some.inj read) with ⟨text, _, rfl⟩
    exact Or.inl ⟨fun _ => Condition.noConfusion, fun _ _ _ _ => Condition.noConfusion⟩
  · rename_i word value
    exact Or.inr (Or.inr ⟨word, value, (Except.ok.inj (Option.some.inj read)).symm⟩)
  · obtain rfl := Except.ok.inj (Option.some.inj read)
    exact Or.inl ⟨fun _ => Condition.noConfusion, fun _ _ _ _ => Condition.noConfusion⟩
  · cases read

theorem Denotes.wildcard_cases {field pattern : Text} {slop : Option Text} {token : Placed Token}
    (denotes : Denotes field slop token (.wildcard pattern)) :
    (field ≠ ['*'] ∧ pattern = ['*']) ∨ token.value = .pattern pattern := by
  cases denotes with
  | range value read =>
    rcases exists_of_rangeCondition read with ⟨_, _, impossible⟩
    cases impossible
  | word read =>
    rcases cases_of_wordCondition? read with other | ⟨named, same⟩ | ⟨found, value, same⟩
    · exact absurd rfl (other.1 pattern)
    · exact Or.inl ⟨named, Condition.wildcard.inj same⟩
    · rw [Condition.wildcard.inj same]
      exact Or.inr value

theorem Denotes.exists_range {field : Text} {slop : Option Text} {token : Placed Token}
    {lower upper : Option Text} {lowerInclusive upperInclusive : Bool}
    (denotes : Denotes field slop token (.range lower upper lowerInclusive upperInclusive)) :
    ∃ lower upper, token.value = .range lower upper lowerInclusive upperInclusive := by
  cases denotes with
  | range value read =>
    rcases exists_of_rangeCondition read with ⟨_, _, same⟩
    cases same
    exact ⟨_, _, value⟩
  | word read =>
    rcases cases_of_wordCondition? read with other | ⟨_, same⟩ | ⟨_, _, same⟩
    · exact absurd rfl (other.2 lower upper lowerInclusive upperInclusive)
    · cases same
    · cases same

theorem wildcardUse_of_ofWord_eq_pattern {word : Text} (value : Token.ofWord word = .pattern word) :
    wildcardUse (glyphs word) = .general := by
  rw [Token.ofWord] at value
  repeat' split at value
  all_goals first | assumption | cases value

/-- A pattern of a query is a lone `*` in some field, or has wildcards other than a final `*`. -/
theorem wildcardUse_of_parse {text field pattern : Text} {query : Query} {leaf : Leaf}
    (parsed : Query.parse text field = .ok query) (member : leaf ∈ query.leaves)
    (wildcard : leaf.condition = .wildcard pattern) :
    (leaf.field ≠ ['*'] ∧ pattern = ['*']) ∨ wildcardUse (glyphs pattern) = .general := by
  rcases Query.parse_eq_ok_iff.1 parsed with ⟨scanned, scans, spelled⟩
  rcases spelled.derives.exists_denotes leaf member with ⟨token, inside, slop, denotes⟩
  rw [wildcard] at denotes
  rcases denotes.wildcard_cases with star | value
  · exact Or.inl star
  · have word := ofWord_of_scan scans token inside pattern (congrArg Token.word? value)
    exact Or.inr (wildcardUse_of_ofWord_eq_pattern (word.symm.trans value))

/-! ## There and back -/

namespace Clause

section

variable {clause : Clause}

theorem condition_of_literal (term : clause.isRange = false) (literal : clause.literal = true) :
    clause.condition = .term clause.term := by
  rw [condition, term, literal, patternOf_true, wildcardUse_map_literal]
  simp

theorem condition_of_general (term : clause.isRange = false) (live : clause.literal = false)
    (general : wildcardUse (patternOf false clause.term) = .general) :
    clause.condition = .wildcard (escape false clause.term) := by
  have noStar : clause.term ≠ ['*'] := by
    intro star
    rw [star] at general
    cases general
  rw [condition, term, live, general]
  simp [noStar]

theorem condition_of_star (term : clause.isRange = false) (live : clause.literal = false)
    (star : clause.term = ['*']) (named : clause.field ≠ ['*']) :
    clause.condition = .wildcard ['*'] := by
  rw [condition, term, live, star]
  simp [named]

theorem condition_of_startsWith {beginning : Text} (term : clause.isRange = false)
    (live : clause.literal = false) (spelled : clause.term = beginning ++ ['*'])
    (nonempty : beginning ≠ []) (plain : beginning.any isWildcard = false) :
    clause.condition = .startsWith beginning := by
  have final : wildcardUse (patternOf false (beginning ++ ['*'])) = .finalStar := by
    have literals : patternOf false beginning = beginning.map .literal :=
      patternOf_false_eq_iff.2 plain
    rw [patternOf, List.map_append, ← patternOf, literals, wildcardUse_literals_append]
    rfl
  rw [condition, term, live, spelled, final, List.dropLast_concat]
  simp [nonempty]

end

/-- The clause that a member is takes part as the member did. -/
theorem occur_of_ofMember {occur : Occur} {query : Query} {clause : Clause}
    (read : ofMember occur query = .ok clause) : clause.negation.occur = occur := by
  have negated {negation : Negation} {leaf : Leaf} (read : ofLeaf negation leaf = .ok clause) :
      clause.negation = negation := by
    rw [ofLeaf.eq_def] at read
    repeat' split at read
    all_goals cases read
    all_goals rfl
  cases occur with
  | should => cases read
  | must =>
    cases query with
    | leaf leaf => rw [negated read]; rfl
    | group => cases read
    | boosted => cases read
  | mustNot =>
    cases query with
    | leaf leaf => rw [negated read]; rfl
    | group => cases read
    | boosted => cases read

end Clause

namespace Leaf.Yields

variable {leaf : Leaf} {clause : Clause}

theorem readable (yields : leaf.Yields clause) (named : leaf.field ≠ [])
    (unbroken : Unbroken leaf.field)
    (content : ∀ text, leaf.condition.text? = some text → text ≠ [] ∧ Unbroken text)
    (bounded : ∀ lower, leaf.condition ≠ .range lower (some []) true true) : clause.Readable := by
  rw [← yields.field_eq] at named unbroken
  refine ⟨named, unbroken, ?_⟩
  intro term
  rcases yields.condition_cases with same | ⟨pattern, same, live⟩ | ⟨beginning, same, spelled⟩ |
    same
  · exact content clause.term (congrArg Condition.text? same)
  · rcases content pattern (congrArg Condition.text? same) with ⟨nonempty, whole⟩
    exact readable_of_livePattern? live nonempty whole
  · rcases content beginning (congrArg Condition.text? same) with ⟨_, whole⟩
    rw [spelled]
    refine ⟨by simp, ?_⟩
    exact List.forall_mem_append.2 ⟨whole, (by decide : Unbroken ['*'])⟩
  · rw [Clause.isRange_eq_false_iff.1 term] at same
    exact absurd same (bounded _)

theorem isRange_eq_false (yields : leaf.Yields clause) {lower : Option Text}
    (empty : leaf.condition = .range lower (some []) true true) : clause.isRange = false := by
  rcases yields with ⟨negation, read⟩
  rw [Clause.ofLeaf, empty] at read
  cases lower with
  | none => cases read
  | some lower =>
    cases read
    rfl

/-- A leaf is like the leaf of its clause, unless it is a range with an empty upper bound. -/
theorem alike_leaf (yields : leaf.Yields clause)
    (content : ∀ text, leaf.condition.text? = some text → text ≠ [])
    (patterned : ∀ pattern, leaf.condition = .wildcard pattern →
      (leaf.field ≠ ['*'] ∧ pattern = ['*']) ∨ wildcardUse (glyphs pattern) = .general)
    (bounded : ∀ lower, leaf.condition ≠ .range lower (some []) true true) :
    leaf.Alike clause.leaf := by
  refine ⟨yields.field_eq.symm, ?_⟩
  rcases leaf with ⟨field, condition⟩
  rcases yields with ⟨negation, read⟩
  cases condition with
  | term text =>
    cases read
    rw [Clause.leaf, Clause.condition_of_literal rfl rfl]
    exact rfl
  | wildcard pattern =>
    cases live : livePattern? pattern with
    | none =>
      simp only [Clause.ofLeaf, live] at read
      cases read
    | some term =>
      simp only [Clause.ofLeaf, live] at read
      cases read
      have same := patternOf_of_livePattern? live
      -- with a final star as its only wildcard the term would come back as a beginning
      rcases patterned pattern rfl with ⟨named, rfl⟩ | general
      · have star : term = ['*'] := (term_eq_of_livePattern? live).trans rfl
        rw [Clause.leaf, Clause.condition_of_star rfl rfl star named]
        exact rfl
      · rw [← same] at general
        rw [Clause.leaf, Clause.condition_of_general rfl rfl general]
        exact same.symm.trans (glyphs_escape false term).symm
  | startsWith beginning =>
    simp only [Clause.ofLeaf] at read
    split at read
    · cases read
    · rename_i plain
      cases read
      have nonempty := content beginning rfl
      rw [Clause.leaf,
        Clause.condition_of_startsWith rfl rfl rfl nonempty (Bool.eq_false_iff.2 plain)]
      exact rfl
  | range lower upper lowerInclusive upperInclusive =>
    simp only [Clause.ofLeaf] at read
    split at read
    · rename_i inclusive
      rw [Bool.and_eq_true] at inclusive
      rcases inclusive with ⟨rfl, rfl⟩
      split at read
      · rename_i lower upper
        cases read
        have nonempty : upper ≠ [] := fun empty => bounded lower (by rw [empty])
        have range : Clause.isRange ⟨negation, field, lower, upper, false⟩ = true := by
          simp [Clause.isRange, nonempty]
        rw [Clause.leaf, Clause.condition, if_pos range]
        exact rfl
      · cases read
    · cases read
  | regexp expression => cases read
  | fuzzy text slop => cases read
  | everything => cases read

end Leaf.Yields

/-! ## What is read back from a clause -/

/-- A clause that is no range has no range among its tokens. -/
theorem ClauseTokens.ne_range {clause : Clause} {tokens : Tokens} (term : clause.isRange = false)
    (written : ClauseTokens clause tokens) {lower upper : Bound}
    {lowerInclusive upperInclusive : Bool} :
    ∀ token ∈ tokens, token.value ≠ .range lower upper lowerInclusive upperInclusive := by
  have word {token : Token} (isWord : token.IsWord) :
      token ≠ .range lower upper lowerInclusive upperInclusive := by
    rcases isWord with ⟨letters, _, _, rfl⟩
    exact Token.ofWord_ne (by simp) Token.noConfusion Token.noConfusion Token.noConfusion
  rcases written with ⟨sign, name, colon, condition, rfl, signs, words, separates, contents⟩
  simp only [List.forall_mem_cons, List.forall_mem_append]
  refine ⟨?_, fun token member => word (words token member), ?_, ?_⟩
  · rintro range
    rw [range] at signs
    cases negation : clause.negation <;> simp [negation, Negation.sign, Negation.bareSign] at signs
  · rw [separates]
    exact Token.noConfusion
  · rcases contents with ⟨range, _⟩ | ⟨_, words, _⟩
    · rw [term] at range
      cases range
    · exact fun token member => word (words token member)

/-- A clause that is no range is not read as one. -/
theorem Clause.ne_range_of_parse_text {clause : Clause} {field : Text} {query : Query}
    (named : clause.field ≠ []) (term : clause.isRange = false)
    (parsed : Query.parse clause.text field = .ok query) {leaf : Leaf}
    (member : leaf ∈ query.leaves) {lower upper : Option Text}
    {lowerInclusive upperInclusive : Bool} :
    leaf.condition ≠ .range lower upper lowerInclusive upperInclusive := by
  intro range
  rcases (scannedAs_clause named).scan with ⟨scanned, scans, tokens⟩
  rcases Query.parse_eq_ok_iff.1 parsed with ⟨found, scansToo, spelled⟩
  rw [scans] at scansToo
  obtain rfl := Except.ok.inj scansToo
  rcases spelled.derives.exists_denotes leaf member with ⟨token, inside, slop, denotes⟩
  rw [range] at denotes
  rcases denotes.exists_range with ⟨_, _, value⟩
  exact tokens.ne_range term token inside value

/-- A condition of a query that is a clause is read back from the text of the clause, alone in a
group and with the same kind and content, exactly when it is no range with an empty upper bound. -/
theorem Clause.parse_text_alike_iff {text field again : Text} {query : Query} {leaf : Leaf}
    {occur : Occur} {clause : Clause} (parsed : Query.parse text field = .ok query)
    (member : leaf ∈ query.leaves) (converts : ofMember occur (.leaf leaf) = .ok clause)
    (named : leaf.field ≠ []) (unbroken : Unbroken leaf.field)
    (content : ∀ own, leaf.condition.text? = some own → own ≠ [] ∧ Unbroken own) :
    (∃ other, Query.parse clause.text again = .ok (.group [(occur, .leaf other)]) ∧
        leaf.Alike other) ↔
      ∀ lower, leaf.condition ≠ .range lower (some []) true true := by
  have yields : leaf.Yields clause := by
    rcases yields_of_ofMember converts with ⟨found, same, yields⟩
    rwa [Query.leaf.inj same]
  constructor
  · rintro ⟨other, parsedAgain, _, alike⟩ lower empty
    rw [empty] at alike
    have inside : other ∈ (Query.group [(occur, .leaf other)]).leaves := by
      simp [Query.leaves, memberLeaves]
    rw [← yields.field_eq] at named
    exact ne_range_of_parse_text named (yields.isRange_eq_false empty) parsedAgain inside
      alike.range_eq
  · intro bounded
    have readable := yields.readable named unbroken content bounded
    have alike := yields.alike_leaf (fun own same => (content own same).1)
      (fun pattern wildcard => wildcardUse_of_parse parsed member wildcard) bounded
    refine ⟨clause.leaf, ?_, alike⟩
    rw [readable.parse_text again, Clause.query, occur_of_ofMember converts]

/-- A pattern comes back without its needless escape.  A range with an empty upper bound comes back
as something else. -/
theorem Clause.parse_text_alike_of_escaped_pattern :
    (∃ other, Query.parse "+f:a?".toList ['e'] = .ok (.group [(.must, .leaf other)]) ∧
      Leaf.Alike ⟨['f'], .wildcard "\\a?".toList⟩ other) ∧
    ¬ ∃ other, Query.parse "+pv:a".toList ['e'] = .ok (.group [(.must, .leaf other)]) ∧
      Leaf.Alike ⟨['p', 'v'], .range (some ['a']) (some []) true true⟩ other := by
  let pattern : Leaf := ⟨['f'], .wildcard "\\a?".toList⟩
  let range : Leaf := ⟨['p', 'v'], .range (some ['a']) (some []) true true⟩
  constructor
  · have leaves : (Query.parse "f:\\a?".toList ['d']).toOption.map Query.leaves =
        some [pattern] := by
      decide +kernel
    rcases Option.map_eq_some_iff.1 leaves with ⟨query, parsed, single⟩
    have member : pattern ∈ query.leaves := single ▸ List.mem_cons_self
    have converts : ofMember .must (.leaf pattern) =
        .ok ⟨.is, ['f'], "a?".toList, [], false⟩ := by
      rfl
    have written : "+f:a?".toList = Clause.text ⟨.is, ['f'], "a?".toList, [], false⟩ := by decide
    have own : ∀ own, pattern.condition.text? = some own → own ≠ [] ∧ Unbroken own := by
      intro own same
      rw [← Option.some.inj same]
      decide
    rw [written]
    exact (Clause.parse_text_alike_iff (eq_ok_of_toOption parsed) member converts (by decide)
      (by decide) own).2 fun _ => Condition.noConfusion
  · have leaves : (Query.parse "pv:[\"a\" TO \"\"]".toList ['d']).toOption.map Query.leaves =
        some [range] := by
      decide +kernel
    rcases Option.map_eq_some_iff.1 leaves with ⟨query, parsed, single⟩
    have member : range ∈ query.leaves := single ▸ List.mem_cons_self
    have converts : ofMember .must (.leaf range) = .ok ⟨.is, ['p', 'v'], ['a'], [], false⟩ := by
      rfl
    have written : "+pv:a".toList = Clause.text ⟨.is, ['p', 'v'], ['a'], [], false⟩ := by decide
    rw [written]
    intro same
    exact (Clause.parse_text_alike_iff (eq_ok_of_toOption parsed) member converts (by decide)
      (by decide) fun _ impossible => nomatch impossible).1 same ['a'] rfl

end AlarmQuery
