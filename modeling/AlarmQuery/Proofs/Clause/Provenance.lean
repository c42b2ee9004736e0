import AlarmQuery.Proofs.Clause.Condition
import AlarmQuery.Proofs.Clause.ListTokens
import AlarmQuery.Proofs.Query.Accepted

/-!
# What the tokens of a written list can be read as

Whatever its clauses are, a written list has one colon for each of them, none in front of an
opening parenthesis, and no token that could name a field with a stray space in it or give such a
term.  A clause without a content leaves a colon in front of a closing parenthesis.
-/

namespace AlarmQuery

/-! ## Words -/

theorem Token.eq_of_ofWord_eq_term {word other : Text} (value : Token.ofWord word = .term other) :
    other = word := by
  by_contra different
  refine Token.ofWord_ne (by simp) ?_ Token.noConfusion Token.noConfusion value
  exact fun same => different (Token.term.inj same)

/-- No word is a colon or a parenthesis. -/
theorem Token.IsWord.ne {token mark : Token} (word : token.IsWord)
    (other : mark ∈ [Token.colon, .openParen, .closeParen]) : token ≠ mark := by
  rcases word with ⟨letters, _, _, rfl⟩
  simp only [List.mem_cons, List.not_mem_nil, or_false] at other
  rcases other with rfl | rfl | rfl
  all_goals
    exact Token.ofWord_ne (by decide) Token.noConfusion Token.noConfusion Token.noConfusion

theorem unbroken_content {letters : List Letter}
    (unbroken : ∀ letter ∈ letters, isStray letter.char = false) : Unbroken (content letters) := by
  intro c member
  rcases List.mem_map.1 member with ⟨letter, inside, rfl⟩
  exact unbroken letter inside

theorem unescapeAt_written {letters : List Letter}
    (faithful : ∀ letter ∈ letters, letter.Faithful) (position : Nat) :
    unescapeAt position (written letters) = .ok (content letters) := by
  rw [unescapeAt, unescape_written faithful]
  rfl

/-- A word with a final star is written with a bare star at its end. -/
theorem exists_of_finalStar {letters : List Letter}
    (faithful : ∀ letter ∈ letters, letter.Faithful)
    (final : wildcardUse (glyphs (written letters)) = .finalStar) :
    ∃ beginning, letters = beginning ++ [⟨'*', false⟩] := by
  rw [glyphs_written faithful] at final
  rcases exists_of_wildcardUse_eq_finalStar final with ⟨literals, split⟩
  rcases List.map_eq_append_iff.1 split with ⟨beginning, last, rfl, _, star⟩
  rcases List.map_eq_singleton_iff.1 star with ⟨letter, rfl, live⟩
  refine ⟨beginning, ?_⟩
  have char : letter.char = '*' := by
    rw [← Letter.char_glyph, live]
    rfl
  cases escaped : letter.escaped with
  | true =>
    rw [Letter.glyph, if_pos escaped] at live
    cases live
  | false =>
    rw [show letter = ⟨'*', false⟩ by
      rw [← char, ← escaped]]

/-! ## Tokens without stray spaces -/

/-- Whatever the token is read as, there are no stray spaces in the name or in the term. -/
structure GivesUnbroken (token : Placed Token) : Prop where
  name : ∀ {name : Text}, Names token name → Unbroken name
  term : ∀ {leaf : Leaf} {slop : Option Text} {clause : Clause},
    Denotes leaf.field slop token leaf.condition → leaf.Yields clause → clause.isRange = false →
      Unbroken clause.term

theorem Denotes.word_eq {field : Text} {slop : Option Text} {token : Placed Token}
    {condition : Condition} (denotes : Denotes field slop token condition)
    (noQuotes : ∀ contents, token.value ≠ .quoted contents)
    (noRange : ∀ lower upper one two, token.value ≠ .range lower upper one two) :
    wordCondition? field slop token = some (.ok condition) := by
  cases denotes with
  | quoted value _ => exact absurd value (noQuotes _)
  | range value _ => exact absurd value (noRange _ _ _ _)
  | word read => exact read

theorem Denotes.ofWord_eq {field : Text} {slop : Option Text} {word : Text} {position : Nat}
    {condition : Condition} (denotes : Denotes field slop ⟨.ofWord word, position⟩ condition) :
    wordCondition? field slop ⟨.ofWord word, position⟩ = some (.ok condition) := by
  apply denotes.word_eq
  · intro contents
    exact Token.ofWord_ne (by simp) Token.noConfusion Token.noConfusion Token.noConfusion
  · intro lower upper one two
    exact Token.ofWord_ne (by simp) Token.noConfusion Token.noConfusion Token.noConfusion

theorem Denotes.range_eq {field : Text} {slop : Option Text} {token : Placed Token}
    {condition : Condition} (denotes : Denotes field slop token condition) {lower upper : Bound}
    {one two : Bool} (value : token.value = .range lower upper one two) :
    rangeCondition lower upper one two = .ok condition := by
  cases denotes with
  | quoted other _ =>
    rw [value] at other
    cases other
  | range other read =>
    rw [value] at other
    cases other
    exact read
  | word read =>
    rw [wordCondition?, value] at read
    cases read

/-- Signs, parentheses and colons are never read as a name or a condition. -/
theorem givesUnbroken_of_mark {token : Placed Token} (mark : token.value ∈ marks) :
    GivesUnbroken token where
  name names := absurd rfl (names.ne_mark mark)
  term denotes _ _ := absurd rfl (denotes.ne_mark mark)

theorem givesUnbroken_of_bareSign {token : Placed Token} {negation : Negation}
    (sign : token.value = negation.bareSign) : GivesUnbroken token := by
  constructor
  · rintro name (⟨word, value, _⟩ | ⟨value, _⟩)
    · rw [sign] at value
      cases negation <;> cases value
    · rw [sign] at value
      cases negation <;> cases value
  · intro leaf slop clause denotes yields _
    have read := denotes.word_eq (by rw [sign]; cases negation <;> exact fun _ => Token.noConfusion)
      (by rw [sign]; cases negation <;> exact fun _ _ _ _ => Token.noConfusion)
    have condition : leaf.condition ∈ [.term ['+'], .term ['-']] := by
      rw [wordCondition?, sign] at read
      cases negation with
      | is =>
        rw [← Except.ok.inj (Option.some.inj read)]
        decide
      | isNot =>
        rw [← Except.ok.inj (Option.some.inj read)]
        decide
    have term : clause.term = ['+'] ∨ clause.term = ['-'] := by
      rcases yields.condition_cases with same | ⟨_, same, _⟩ | ⟨_, same, _⟩ | same
      · rw [same] at condition
        simpa using condition
      · rw [same] at condition
        simp at condition
      · rw [same] at condition
        simp at condition
      · rw [same] at condition
        simp at condition
    rcases term with same | same
    · rw [same]
      decide
    · rw [same]
      decide

theorem givesUnbroken_of_range {token : Placed Token} {content : Clause} {lower upper : Nat}
    (range : content.isRange = true) (value : token.value = content.operand lower upper) :
    GivesUnbroken token := by
  rw [Clause.operand, if_pos range] at value
  constructor
  · rintro name (⟨word, other, _⟩ | ⟨other, _⟩)
    · rw [value] at other
      cases other
    · rw [value] at other
      cases other
  · intro leaf slop clause denotes yields term
    exfalso
    have condition : leaf.condition =
        .range (some content.term) (some content.upTo) true true := by
      have read := denotes.range_eq value
      simp only [rangeCondition, readBoundText, if_true, unescapeAt_escape] at read
      exact (Except.ok.inj read).symm
    rcases yields.condition_cases with same | ⟨_, same, _⟩ | ⟨_, same, _⟩ | same
    · rw [condition] at same
      cases same
    · rw [condition] at same
      cases same
    · rw [condition] at same
      cases same
    · rw [condition] at same
      injection same with _ upTos
      rw [Clause.isRange, ← Option.some.inj upTos] at term
      rw [Clause.isRange, term] at range
      cases range

/-- The conditions that a word can stand for. -/
theorem Denotes.condition_of_ofWord {field : Text} {slop : Option Text} {letters : List Letter}
    (faithful : ∀ letter ∈ letters, letter.Faithful) {position : Nat} {condition : Condition}
    (denotes : Denotes field slop ⟨.ofWord (written letters), position⟩ condition) :
    condition ∈ [.everything, .wildcard ['*'], .term (content letters),
        .wildcard (written letters)] ∨
      (∃ number, condition = .fuzzy (content letters) number) ∨
      ∃ beginning, letters = beginning ++ [⟨'*', false⟩] ∧
        condition = .startsWith (content beginning) := by
  have read := denotes.ofWord_eq
  rcases Token.ofWord_cases (written letters) with operator | word | ⟨word, final⟩ | word
  · simp only [List.mem_cons, List.not_mem_nil, or_false] at operator
    rcases operator with word | word | word | word
    all_goals rw [wordCondition?, word] at read
    · cases read
    · cases read
    · cases read
    · have same := Except.ok.inj (Option.some.inj read)
      split at same
      · simp [← same]
      · simp [← same]
  · simp only [wordCondition?, word, unescapeAt_written faithful] at read
    have same := Except.ok.inj (Option.some.inj read)
    cases slop with
    | none => simp [← same]
    | some number => exact Or.inr (Or.inl ⟨number, same.symm⟩)
  · rcases exists_of_finalStar faithful final with ⟨beginning, rfl⟩
    have dropped : (written (beginning ++ [⟨'*', false⟩])).dropLast = written beginning := by
      rw [written_append]
      exact List.dropLast_concat
    have first : ∀ letter ∈ beginning, letter.Faithful := fun letter member =>
      faithful letter (List.mem_append_left _ member)
    simp only [wordCondition?, word, dropped, unescapeAt_written first] at read
    exact Or.inr (Or.inr ⟨beginning, rfl, (Except.ok.inj (Option.some.inj read)).symm⟩)
  · simp only [wordCondition?, word] at read
    simp [← Except.ok.inj (Option.some.inj read)]

theorem term_of_livePattern? {letters : List Letter}
    (faithful : ∀ letter ∈ letters, letter.Faithful) {term : Text}
    (live : livePattern? (written letters) = some term) : term = content letters := by
  rw [← (livePattern?_eq_some_iff.1 live).2, glyphs_written faithful, List.map_map]
  exact List.map_congr_left fun letter _ => letter.char_glyph

section

variable {letters : List Letter} {position : Nat}

theorem Names.unbroken_of_ofWord (faithful : ∀ letter ∈ letters, letter.Faithful)
    (unbroken : ∀ letter ∈ letters, isStray letter.char = false) {name : Text}
    (names : Names ⟨.ofWord (written letters), position⟩ name) : Unbroken name := by
  rcases names with ⟨term, isTerm, read⟩ | ⟨_, rfl⟩
  · rw [Token.eq_of_ofWord_eq_term isTerm, unescapeAt_written faithful] at read
    rw [← Except.ok.inj read]
    exact unbroken_content unbroken
  · decide

theorem Denotes.unbroken_of_ofWord (faithful : ∀ letter ∈ letters, letter.Faithful)
    (unbroken : ∀ letter ∈ letters, isStray letter.char = false) {leaf : Leaf}
    {slop : Option Text} {clause : Clause}
    (denotes : Denotes leaf.field slop ⟨.ofWord (written letters), position⟩ leaf.condition)
    (yields : leaf.Yields clause) : Unbroken clause.term := by
  rcases denotes.condition_of_ofWord faithful with listed | ⟨number, fuzzy⟩ |
    ⟨beginning, rfl, starts⟩
  · simp only [List.mem_cons, List.not_mem_nil, or_false] at listed
    rcases yields.condition_cases with same | ⟨pattern, same, live⟩ | ⟨_, same, _⟩ | same
    · rw [same] at listed
      have term : clause.term = content letters := by simpa using listed
      rw [term]
      exact unbroken_content unbroken
    · rw [same] at listed
      have patterns : pattern = ['*'] ∨ pattern = written letters := by simpa using listed
      rcases patterns with rfl | rfl
      · rw [← Option.some.inj live]
        decide
      · rw [term_of_livePattern? faithful live]
        exact unbroken_content unbroken
    · rw [same] at listed
      simp at listed
    · rw [same] at listed
      simp at listed
  · rcases yields.condition_cases with same | ⟨_, same, _⟩ | ⟨_, same, _⟩ | same
    all_goals cases fuzzy.symm.trans same
  · rcases yields.condition_cases with same | ⟨_, same, _⟩ | ⟨_, same, term⟩ | same
    · cases starts.symm.trans same
    · cases starts.symm.trans same
    · rw [term, ← Condition.startsWith.inj (starts.symm.trans same)]
      have whole := unbroken_content unbroken
      rwa [content, List.map_append] at whole
    · cases starts.symm.trans same

end

/-- A word without stray spaces names a field and gives a term without them. -/
theorem givesUnbroken_of_isWord {token : Placed Token} (word : token.value.IsWord) :
    GivesUnbroken token := by
  rcases token with ⟨value, position⟩
  rcases word with ⟨letters, _, each, rfl⟩
  have faithful : ∀ letter ∈ letters, letter.Faithful := fun letter member =>
    (each letter member).2.1
  have unbroken : ∀ letter ∈ letters, isStray letter.char = false := fun letter member =>
    (each letter member).2.2
  constructor
  · exact fun names => names.unbroken_of_ofWord faithful unbroken
  · exact fun denotes yields _ => denotes.unbroken_of_ofWord faithful unbroken yields

/-! ## Written lists -/

/-- The tokens of a clause give nothing with a stray space. -/
theorem ClauseTokens.givesUnbroken {clause : Clause} {tokens : Tokens}
    (written : ClauseTokens clause tokens) : ∀ token ∈ tokens, GivesUnbroken token := by
  rcases written with ⟨sign, name, colon, condition, rfl, signs, words, separates, contents⟩
  intro token member
  simp only [List.mem_cons, List.mem_append] at member
  rcases member with rfl | inName | rfl | inCondition
  · rw [List.mem_cons, List.mem_singleton] at signs
    rcases signs with value | value
    · apply givesUnbroken_of_mark
      rw [value]
      cases clause.negation <;> decide
    · exact givesUnbroken_of_bareSign value
  · exact givesUnbroken_of_isWord (words token inName)
  · apply givesUnbroken_of_mark
    rw [separates]
    decide
  · rcases contents with ⟨range, lower, upper, position, rfl⟩ | ⟨_, word, _⟩
    · rw [List.mem_singleton.1 inCondition]
      exact givesUnbroken_of_range range rfl
    · exact givesUnbroken_of_isWord (word token inCondition)

theorem ConditionTokens.ne {clause : Clause} {tokens : Tokens}
    (written : ConditionTokens clause tokens) {mark : Token}
    (other : mark ∈ [Token.colon, .openParen, .closeParen]) :
    ∀ token ∈ tokens, token.value ≠ mark := by
  rcases written with ⟨range, lower, upper, position, rfl⟩ | ⟨_, words, _⟩
  · intro token member
    rw [List.mem_singleton.1 member, Clause.operand, if_pos range]
    rintro rfl
    simp at other
  · exact fun token member => (words token member).ne other

theorem ClauseTokens.ne_colon {clause : Clause} {sign : Placed Token} {name : Tokens}
    (signs : sign.value ∈ [clause.negation.sign, clause.negation.bareSign])
    (words : ∀ word ∈ name, word.value.IsWord) :
    ∀ token ∈ sign :: name, token.value ≠ .colon := by
  intro token member
  rcases List.mem_cons.1 member with rfl | inName
  · intro value
    rw [value] at signs
    revert signs
    cases clause.negation <;> decide
  · exact (words token inName).ne (by decide)

theorem countColons_clause {clause : Clause} {tokens : Tokens}
    (written : Parenthesized (ClauseTokens clause) tokens) : countColons tokens = 1 := by
  rcases written with ⟨opening, content, closing, rfl, opens, closes, sign, name, colon, condition,
    rfl, signs, words, separates, contents⟩
  have opensNone : opening.value ≠ .colon := opens.trans_ne Token.noConfusion
  have closesNone : closing.value ≠ .colon := closes.trans_ne Token.noConfusion
  have split : sign :: (name ++ colon :: condition) ++ [closing] =
      (sign :: name) ++ colon :: (condition ++ [closing]) := by simp
  rw [countColons_cons opensNone, split, countColons_append,
    countColons_eq_zero (ClauseTokens.ne_colon signs words), countColons_colon separates,
    countColons_append, countColons_eq_zero (contents.ne (by decide)),
    countColons_cons closesNone]
  rfl

theorem followed_clause {clause : Clause} {tokens : Tokens}
    (written : Parenthesized (ClauseTokens clause) tokens) :
    Followed (· ≠ .openParen) tokens := by
  rcases written with ⟨opening, content, closing, rfl, opens, closes, sign, name, colon, condition,
    rfl, signs, words, separates, contents⟩
  have opensNone : opening.value ≠ .colon := opens.trans_ne Token.noConfusion
  have closesNone : closing.value ≠ .colon := closes.trans_ne Token.noConfusion
  have split : sign :: (name ++ colon :: condition) ++ [closing] =
      (sign :: name) ++ colon :: (condition ++ [closing]) := by simp
  have last : Followed (· ≠ .openParen) [closing] :=
    Followed.cons closesNone (.of_forall_ne fun _ absent => absurd absent List.not_mem_nil)
  apply Followed.cons opensNone
  rw [split]
  apply (Followed.of_forall_ne (ClauseTokens.ne_colon signs words)).append
  cases condition with
  | nil =>
    apply Followed.colon_cons _ last
    rw [closes]
    exact Token.noConfusion
  | cons first condition =>
    have noColon := contents.ne (by decide : Token.colon ∈ _)
    exact Followed.colon_cons (contents.ne (by decide) first List.mem_cons_self)
      ((Followed.of_forall_ne noColon).append last)

/-- Without a content the colon of a clause stands in front of the closing parenthesis. -/
theorem not_followed_clause {clause : Clause} {tokens : Tokens}
    (written : Parenthesized (ClauseTokens clause) tokens) (term : clause.isRange = false)
    (empty : clause.term = []) {whole : Tokens} (inside : tokens <:+: whole) :
    ¬ Followed (· ≠ .closeParen) whole := by
  rcases written with ⟨opening, content, closing, rfl, opens, closes, sign, name, colon, condition,
    rfl, signs, words, separates, contents⟩
  have nothing : condition = [] := by
    rcases contents with ⟨range, _⟩ | ⟨_, _, emptied⟩
    · rw [term] at range
      cases range
    · exact emptied empty
  subst nothing
  rcases inside with ⟨before, after, rfl⟩
  intro followed
  rcases followed (before ++ opening :: sign :: name) colon (closing :: after) (by simp) separates
    with ⟨next, rest, same, other⟩
  rw [List.cons.injEq] at same
  rw [← same.1] at other
  exact other closes

/-! ## Part by part -/

namespace Concats

variable {α : Type} {part : α → Tokens → Prop} {items : List α} {whole : Tokens}

theorem followed {kind : Token → Prop}
    (each : ∀ item ∈ items, ∀ tokens, part item tokens → Followed kind tokens)
    (concats : Concats part items whole) : Followed kind whole := by
  induction concats with
  | nil => exact .of_forall_ne fun _ absent => absurd absent List.not_mem_nil
  | cons head tail ih =>
    apply (each _ List.mem_cons_self _ head).append
    exact ih fun item member => each item (List.mem_cons_of_mem _ member)

theorem countColons_eq {γ : Type} {counted : α → List γ}
    (each : ∀ item tokens, part item tokens → countColons tokens = (counted item).length)
    (concats : Concats part items whole) :
    countColons whole = (items.flatMap counted).length := by
  induction concats with
  | nil => rfl
  | cons head tail ih =>
    rw [countColons_append, each _ _ head, ih, List.flatMap_cons, List.length_append]

end Concats

section

variable {clauses : List Clause} {tokens : Tokens}

/-- No token of a list gives a name or a term with a stray space. -/
theorem givesUnbroken_list
    (written : Concats (DemandTokens ClauseTokens) (Clause.groups clauses) tokens) :
    ∀ token ∈ tokens, GivesUnbroken token := by
  refine written.forall_mem ?_
  rintro group _ _ ⟨plus, _, rfl, sign, opening, content, closing, rfl, opens, closes, inner⟩
  have clause : ∀ token ∈ content, GivesUnbroken token := by
    refine inner.forall_mem ?_
    rintro clause _ _ ⟨opening, content, closing, rfl, opens, closes, single⟩ token member
    simp only [List.mem_cons, List.mem_append, List.not_mem_nil, or_false] at member
    rcases member with rfl | inside | rfl
    · exact givesUnbroken_of_mark (by rw [opens]; decide)
    · exact single.givesUnbroken token inside
    · exact givesUnbroken_of_mark (by rw [closes]; decide)
  intro token member
  simp only [List.mem_cons, List.mem_append, List.not_mem_nil, or_false] at member
  rcases member with rfl | rfl | inside | rfl
  · exact givesUnbroken_of_mark (by rw [sign]; decide)
  · exact givesUnbroken_of_mark (by rw [opens]; decide)
  · exact clause token inside
  · exact givesUnbroken_of_mark (by rw [closes]; decide)

/-- No colon of a list stands in front of an opening parenthesis. -/
theorem followed_list
    (written : Concats (DemandTokens ClauseTokens) (Clause.groups clauses) tokens) :
    Followed (· ≠ .openParen) tokens := by
  refine written.followed ?_
  rintro group _ _ ⟨plus, _, rfl, sign, opening, content, closing, rfl, opens, closes, inner⟩
  have closesNone : closing.value ≠ .colon := closes.trans_ne Token.noConfusion
  apply Followed.cons
  · rw [sign]
    exact Token.noConfusion
  apply Followed.cons
  · rw [opens]
    exact Token.noConfusion
  apply Followed.append
  · exact inner.followed fun _ _ _ => followed_clause
  · exact Followed.cons closesNone (.of_forall_ne fun _ absent => absurd absent List.not_mem_nil)

/-- A list has one colon for each of its clauses. -/
theorem countColons_list
    (written : Concats (DemandTokens ClauseTokens) (Clause.groups clauses) tokens) :
    countColons tokens = (Clause.grouped clauses).length := by
  rw [Clause.grouped, ← List.flatMap_id]
  apply written.countColons_eq
  rintro group _ ⟨plus, _, rfl, sign, opening, content, closing, rfl, opens, closes, inner⟩
  have signNone : plus.value ≠ .colon := sign.trans_ne Token.noConfusion
  have opensNone : opening.value ≠ .colon := opens.trans_ne Token.noConfusion
  have closesNone : closing.value ≠ .colon := closes.trans_ne Token.noConfusion
  have each : countColons content = (group.flatMap fun clause => [clause]).length :=
    inner.countColons_eq fun _ _ => countColons_clause
  rw [countColons_cons signNone, countColons_cons opensNone, countColons_append,
    countColons_cons closesNone, each, List.flatMap_singleton']
  rfl

/-- A clause without a content leaves a colon in front of a closing parenthesis. -/
theorem not_followed_list
    (written : Concats (DemandTokens ClauseTokens) (Clause.groups clauses) tokens)
    {clause : Clause} (member : clause ∈ clauses) (term : clause.isRange = false)
    (empty : clause.term = []) : ¬ Followed (· ≠ .closeParen) tokens := by
  have grouped : clause ∈ Clause.grouped clauses := Clause.mem_grouped.2 member
  rcases List.mem_flatten.1 grouped with ⟨group, present, inGroup⟩
  rcases written.exists_part present with ⟨_, demanded, plus, _, rfl, _, opening, content, closing,
    rfl, _, _, inner⟩
  rcases inner.exists_part inGroup with ⟨single, inside, tokens⟩
  have contentInside : content <:+: plus :: opening :: (content ++ [closing]) :=
    ⟨[plus, opening], [closing], by simp⟩
  exact not_followed_clause tokens term empty (inside.trans (contentInside.trans demanded))

end

end AlarmQuery
