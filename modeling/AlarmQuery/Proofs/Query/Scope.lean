import AlarmQuery.Proofs.Query.Nesting
import AlarmQuery.Proofs.Query.Parts
import AlarmQuery.Proofs.Token.Escaped
import AlarmQuery.Proofs.Token.Locality

/-!
# Queries in parentheses

What tokens spell does not depend on where they stand.  So a query in parentheses is the query that
it is alone, and a field in front of the parentheses takes the place of the default field: inside
them it is the field of every clause that names none.
-/

namespace AlarmQuery

/-! ## Tokens further behind -/

section

variable {offset : Nat}

/-- Tokens without positions of their own have the same values further behind. -/
theorem map_value_shift {tokens : Tokens}
    (same : ∀ token ∈ tokens, token.value.shift offset = token.value) :
    (tokens.map (Placed.shift offset)).map Placed.value = tokens.map Placed.value := by
  rw [List.map_map]
  exact List.map_congr_left same

theorem Token.IsSuffix.shift_eq_self {token : Token} (suffix : token.IsSuffix) :
    token.shift offset = token := by
  rcases suffix with ⟨number, rfl⟩ | ⟨number, rfl⟩ <;> rfl

theorem shift_of_joint {conjunction : Conjunction} {joint : Tokens}
    (joins : joint.map Placed.value ∈ conjunction.spellings) :
    ∀ token ∈ joint, token.value.shift offset = token.value := by
  have listed : ∀ values ∈ conjunction.spellings, ∀ value ∈ values,
      value.shift offset = value := by
    cases conjunction <;> simp [Conjunction.spellings, Token.shift]
  exact fun token member => listed _ joins _ (List.mem_map_of_mem member)

theorem shift_of_sign {modifier : Modifier} {sign : Tokens}
    (modifies : sign.map Placed.value ∈ modifier.spellings) :
    ∀ token ∈ sign, token.value.shift offset = token.value := by
  have listed : ∀ values ∈ modifier.spellings, ∀ value ∈ values, value.shift offset = value := by
    cases modifier <;> simp [Modifier.spellings, Token.shift]
  exact fun token member => listed _ modifies _ (List.mem_map_of_mem member)

theorem wordCondition?_shift {field : Text} {slop : Option Text} {token : Placed Token}
    {condition : Condition} (read : wordCondition? field slop token = some (.ok condition)) :
    wordCondition? field slop (token.shift offset) = some (.ok condition) := by
  rcases token with ⟨value, position⟩
  cases value with
  | term word =>
    rcases exists_of_map_eq_ok (Option.some.inj read) with ⟨text, plain, rfl⟩
    have further := unescapeAt_eq_ok_of_eq_ok (position + offset) plain
    simp only [wordCondition?, Placed.shift, Token.shift, further]
    rfl
  | starred word =>
    rcases exists_of_map_eq_ok (Option.some.inj read) with ⟨text, plain, rfl⟩
    have further := unescapeAt_eq_ok_of_eq_ok (position + offset) plain
    simp only [wordCondition?, Placed.shift, Token.shift, further]
    rfl
  | _ => exact read

theorem readBoundText_shift {bound : Bound} {text : Option Text}
    (read : readBoundText bound = .ok text) : readBoundText (bound.shift offset) = .ok text := by
  rcases bound with ⟨source, quoted, position⟩
  cases quoted with
  | true =>
    rcases exists_of_map_eq_ok read with ⟨inner, plain, rfl⟩
    have further := unescapeAt_eq_ok_of_eq_ok (position + offset + 1) plain
    simp only [readBoundText, Bound.shift, if_true, further]
    rfl
  | false =>
    by_cases lone : source = ['*']
    · rw [lone] at read ⊢
      exact read
    · simp only [readBoundText, Bool.false_eq_true, if_false, if_neg lone] at read
      rcases exists_of_map_eq_ok read with ⟨inner, plain, rfl⟩
      have further := unescapeAt_eq_ok_of_eq_ok (position + offset) plain
      simp only [readBoundText, Bound.shift, Bool.false_eq_true, if_false, if_neg lone, further]
      rfl

theorem rangeCondition_shift {lower upper : Bound} {lowerInclusive upperInclusive : Bool}
    {condition : Condition}
    (read : rangeCondition lower upper lowerInclusive upperInclusive = .ok condition) :
    rangeCondition (lower.shift offset) (upper.shift offset) lowerInclusive upperInclusive =
      .ok condition := by
  rw [rangeCondition] at read ⊢
  cases lowerRead : readBoundText lower with
  | error =>
    rw [lowerRead] at read
    cases read
  | ok lowerText =>
    cases upperRead : readBoundText upper with
    | error =>
      rw [lowerRead, upperRead] at read
      cases read
    | ok upperText =>
      rw [readBoundText_shift lowerRead, readBoundText_shift upperRead]
      rwa [lowerRead, upperRead] at read

theorem Names.shift {token : Placed Token} {name : Text} (names : Names token name) :
    Names (token.shift offset) name := by
  rcases names with ⟨word, value, read⟩ | ⟨value, rfl⟩
  · refine Or.inl ⟨word, by rw [Placed.shift, value]; rfl, ?_⟩
    exact unescapeAt_eq_ok_of_eq_ok _ read
  · exact Or.inr ⟨by rw [Placed.shift, value]; rfl, rfl⟩

end

/-- A phrase is spelled the same further behind, by induction on the spelling. -/
theorem Spells.shift {budget : Nat} {field : Text} {tokens : Tokens} {phrase : Phrase}
    (spelled : Spells budget field tokens phrase) (offset : Nat) :
    Spells budget field (tokens.map (Placed.shift offset)) phrase := by
  have value {token : Placed Token} {other : Token} (same : token.value = other) :
      (token.shift offset).value = other.shift offset :=
    congrArg (Token.shift offset) same
  have suffixed {suffix : Tokens} (suffixes : ∀ mark ∈ suffix, mark.value.IsSuffix) :
      (suffix.map (Placed.shift offset)).map Placed.value = suffix.map Placed.value :=
    map_value_shift fun mark member => (suffixes mark member).shift_eq_self
  induction spelled with
  | word read suffixes =>
    have same := suffixed (isSuffix_of_wordSuffixes suffixes)
    exact .word (wordCondition?_shift read) (same ▸ suffixes)
  | quoted contents read suffixes =>
    have same := suffixed (isSuffix_of_wordSuffixes (mem_wordSuffixes suffixes))
    exact .quoted (value contents) (unescapeAt_eq_ok_of_eq_ok _ read)
      (same.trans suffixes)
  | range bounds read suffixes =>
    have same := suffixed (isSuffix_of_boostTokens suffixes)
    exact .range (value bounds) (rangeCondition_shift read) (same.trans suffixes)
  | parentheses opens _ closes suffixes ih =>
    have same := suffixed (isSuffix_of_boostTokens suffixes)
    rw [List.map_cons, List.map_append, List.map_cons]
    exact .parentheses (value opens) ih (value closes) (same.trans suffixes)
  | unnamed _ ih => exact .unnamed ih
  | named names separates _ ih => exact .named names.shift (value separates) ih
  | done => exact .done
  | part joins modifies _ _ clause rest =>
    simp only [List.map_append]
    exact .part (map_value_shift (shift_of_joint joins) ▸ joins)
      (map_value_shift (shift_of_sign modifies) ▸ modifies) clause rest
  | sequence modifies _ _ clause rest =>
    simp only [List.map_append]
    exact .sequence (map_value_shift (shift_of_sign modifies) ▸ modifies) clause rest

/-! ## Parentheses -/

/-- A text in parentheses is scanned as its own tokens between them. -/
theorem scans_enclosed {text : Text} {scanned : Scanned} (scans : scan text = .ok scanned)
    (position : Nat) :
    Scans ⟨position, '(' :: (text ++ [')'])⟩
      (⟨.openParen, position⟩ :: (scanned.tokens.map (Placed.shift (position + 1)) ++
        [⟨.closeParen, position + 1 + text.length⟩]))
      ⟨position + 1 + text.length + 1, []⟩ := by
  have ends : EndsWord [')'] := endsWord_cons ')' (by decide) []
  have apart : scanned.EndsInSign → ∀ c ∈ [')'].head?, isSpace c = false :=
    fun _ c same => Option.some.inj same ▸ by decide
  have inner := scans_of_scan scans ends apart (position + 1)
  exact (scans_openParen position (text ++ [')'])).trans (inner.trans (scans_closeParen _ []))

/-! ## Whole texts -/

/-- A query in parentheses is the query that it is without them, and with a field in front of the
parentheses it is that query whatever the default field is.  Only nesting may stand in the way. -/
theorem Query.parse_scoped {text field : Text} {query : Query} {scanned : Scanned}
    (accepted : Query.parse text field = .ok query) (scans : scan text = .ok scanned)
    (nests : NestsWithin 255 scanned.tokens) :
    Query.parse ('(' :: (text ++ [')'])) field = .ok query ∧
      (field ≠ [] → Unbroken field → ∀ other,
        Query.parse (escape true field ++ ':' :: '(' :: (text ++ [')'])) other = .ok query) := by
  rcases Query.parse_eq_ok_iff.1 accepted with ⟨found, scanned', spelled⟩
  obtain rfl : found = scanned := Except.ok.inj (scanned'.symm.trans scans)
  have within : Spells 255 field found.tokens (.sequence query) := spelled.withBudget nests
  have inner (position : Nat) : Spells 256 field
      (⟨.openParen, position⟩ :: (found.tokens.map (Placed.shift (position + 1)) ++
        [⟨.closeParen, position + 1 + text.length⟩])) (.body query) :=
    (within.shift (position + 1)).enclose rfl rfl
  constructor
  · exact Query.parse_eq_ok_iff.2 ⟨_, scan_eq_ok_of_scans (scans_enclosed scans 0),
      (Spells.unnamed (inner 0)).alone⟩
  · intro named unbroken other
    have prefixed := (scans_field named unbroken 0 ('(' :: (text ++ [')']))).trans
      (scans_enclosed scans _)
    refine Query.parse_eq_ok_iff.2 ⟨_, scan_eq_ok_of_scans prefixed, ?_⟩
    have names : Names ⟨.term (escape true field), 0⟩ field :=
      Or.inl ⟨_, rfl, unescapeAt_escape 0 true field⟩
    exact (Spells.named names rfl (inner _)).alone

/-- Inside the parentheses a clause keeps the field that it names. -/
theorem Query.parse_scoped_of_named_clause :
    ∃ query, Query.parse "(a -g:b)".toList "f d".toList = .ok query ∧
      Query.parse "((a -g:b))".toList "f d".toList = .ok query ∧
      Query.parse "f\\ d:((a -g:b))".toList ['x'] = .ok query := by
  have scans : scan "(a -g:b)".toList = .ok ⟨[⟨.openParen, 0⟩, ⟨.term ['a'], 1⟩, ⟨.minus, 3⟩,
      ⟨.term ['g'], 4⟩, ⟨.colon, 5⟩, ⟨.term ['b'], 6⟩, ⟨.closeParen, 7⟩], 8⟩ :=
    eq_ok_of_toOption (by decide +kernel)
  have read : (Query.parse "(a -g:b)".toList "f d".toList).toOption.isSome = true := by
    decide +kernel
  rcases Option.isSome_iff_exists.1 read with ⟨query, given⟩
  have accepted := eq_ok_of_toOption given
  rcases Query.parse_scoped accepted scans ((nestsWithin_length _).mono (by decide)) with
    ⟨enclosed, prefixed⟩
  exact ⟨query, accepted, enclosed, prefixed (by decide) (by decide) ['x']⟩

end AlarmQuery
