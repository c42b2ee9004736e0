import AlarmQuery.Clause.OfQuery
import AlarmQuery.Proofs.Query.Exact
import AlarmQuery.Proofs.Text.Unescape

/-!
# Which texts are queries

`Grammatical` is the grammar of queries on its own, without what the tokens are read as.  A text is
a query exactly when it consists of tokens, these are derivable, and the escapes in them can be
read.  The field that a query is about has no part in it.
-/

namespace AlarmQuery

/-! ## Escapes that can be read -/

/-- The escapes of the text can be read. -/
def Unescapes (text : Text) : Prop := ∃ plain, unescape 0 text = .ok plain

theorem exists_unescapeAt_iff {position : Nat} {text : Text} :
    (∃ plain, unescapeAt position text = .ok plain) ↔ Unescapes text :=
  exists_congr fun _ => unescapeAt_eq_ok_iff

/-- The escapes of a bound can be read.  A lone `*` without quotes is not read. -/
def Bound.Unescapes (bound : Bound) : Prop :=
  bound.quoted = false ∧ bound.text = ['*'] ∨ AlarmQuery.Unescapes bound.text

/-- The escapes of a token can be read.  Patterns and regular expressions are kept as they are. -/
def Token.Unescapes : Token → Prop
  | .term word => AlarmQuery.Unescapes word
  | .starred word => AlarmQuery.Unescapes word.dropLast
  | .quoted contents => AlarmQuery.Unescapes contents
  | .range lower upper _ _ => lower.Unescapes ∧ upper.Unescapes
  | _ => True

/-! ## The grammar -/

/-- The symbols of the grammar. -/
inductive Symbol
  /-- What may stand behind the name of a field. -/
  | body
  | clause
  /-- The clauses that follow the first one. -/
  | further
  | query

/-- The tokens of an operand that may be fuzzy and boosted. -/
def Token.isBare : Token → Bool
  | .term _ | .star | .starred _ | .pattern _ | .regexp _ | .bareOperator _ => true
  | _ => false

/-- The tokens that may name a field. -/
def Token.isName : Token → Bool
  | .term _ | .star => true
  | _ => false

/-- What may stand between two clauses. -/
def joints : List (List Token) := [[], [.and], [.or]]

/-- What may stand in front of a clause. -/
def signs : List (List Token) := [[], [.plus], [.minus], [.not]]

/-- The tokens are derivable from a symbol, with parentheses nested at most as deep as `depth`
says. -/
inductive Grammatical : (depth : Nat) → Symbol → List Token → Prop
  | bare {depth token suffix slop number} (isBare : token.isBare = true)
      (suffixes : suffix ∈ wordSuffixes slop number) : Grammatical depth .body (token :: suffix)
  | quoted {depth contents slop number} :
      Grammatical depth .body (.quoted contents :: (slopTokens slop ++ boostTokens number))
  | range {depth lower upper lowerInclusive upperInclusive number} :
      Grammatical depth .body
        (.range lower upper lowerInclusive upperInclusive :: boostTokens number)
  | parentheses {depth content number} (inner : Grammatical depth .query content) :
      Grammatical (depth + 1) .body (.openParen :: (content ++ .closeParen :: boostTokens number))
  | unnamed {depth tokens} (body : Grammatical depth .body tokens) :
      Grammatical depth .clause tokens
  | named {depth token tokens} (isName : token.isName = true)
      (body : Grammatical depth .body tokens) :
      Grammatical depth .clause (token :: .colon :: tokens)
  | done {depth} : Grammatical depth .further []
  | further {depth joint sign tokens others} (joins : joint ∈ joints) (modifies : sign ∈ signs)
      (clause : Grammatical depth .clause tokens) (rest : Grammatical depth .further others) :
      Grammatical depth .further (joint ++ (sign ++ (tokens ++ others)))
  | query {depth sign tokens others} (modifies : sign ∈ signs)
      (clause : Grammatical depth .clause tokens) (rest : Grammatical depth .further others) :
      Grammatical depth .query (sign ++ (tokens ++ others))

/-- The text consists of derivable tokens whose escapes can be read. -/
def IsQuery (text : Text) : Prop :=
  ∃ scanned, scan text = .ok scanned ∧
    Grammatical maxNesting .query (scanned.tokens.map Placed.value) ∧
    ∀ token ∈ scanned.tokens, token.value.Unescapes

/-! ## Tokens that mean something -/

theorem mem_joints_iff {joint : List Token} :
    joint ∈ joints ↔ ∃ conjunction : Conjunction, joint ∈ conjunction.spellings := by
  constructor
  · intro member
    simp only [joints, List.mem_cons, List.not_mem_nil, or_false] at member
    rcases member with rfl | rfl | rfl
    · exact ⟨.none, List.mem_singleton.2 rfl⟩
    · exact ⟨.and, List.mem_singleton.2 rfl⟩
    · exact ⟨.or, List.mem_singleton.2 rfl⟩
  · rintro ⟨conjunction, member⟩
    have all : conjunction.spellings ⊆ joints := by
      cases conjunction <;> decide
    exact all member

theorem mem_signs_iff {sign : List Token} :
    sign ∈ signs ↔ ∃ modifier : Modifier, sign ∈ modifier.spellings := by
  constructor
  · intro member
    simp only [signs, List.mem_cons, List.not_mem_nil, or_false] at member
    rcases member with rfl | rfl | rfl | rfl
    · exact ⟨.none, List.mem_singleton.2 rfl⟩
    · exact ⟨.required, List.mem_singleton.2 rfl⟩
    · exact ⟨.prohibited, List.mem_cons_self⟩
    · exact ⟨.prohibited, List.mem_cons_of_mem _ List.mem_cons_self⟩
  · rintro ⟨modifier, member⟩
    have all : modifier.spellings ⊆ signs := by
      cases modifier <;> decide
    exact all member

theorem exists_map_eq_ok_iff {ε α β : Type} {result : Except ε α} {change : α → β} :
    (∃ value, result.map change = .ok value) ↔ ∃ inner, result = .ok inner := by
  cases result with
  | error fault => simp [Except.map]
  | ok inner => simp [Except.map]

/-- The tokens that stand for a condition by themselves. -/
theorem exists_wordCondition?_iff {field : Text} {slop : Option Text} {token : Placed Token} :
    (∃ condition, wordCondition? field slop token = some (.ok condition)) ↔
      token.value.isBare = true ∧ token.value.Unescapes := by
  rcases token with ⟨value, position⟩
  cases value
  all_goals simp [wordCondition?, Token.isBare, Token.Unescapes, exists_map_eq_ok_iff,
    exists_unescapeAt_iff]

theorem exists_readBoundText_iff {bound : Bound} :
    (∃ text, readBoundText bound = .ok text) ↔ bound.Unescapes := by
  rw [readBoundText, Bound.Unescapes]
  cases quoted : bound.quoted with
  | true => simp [exists_map_eq_ok_iff, exists_unescapeAt_iff]
  | false =>
    by_cases lone : bound.text = ['*']
    · simp [lone]
    · simp [lone, exists_map_eq_ok_iff, exists_unescapeAt_iff]

theorem exists_rangeCondition_iff {lower upper : Bound} {lowerInclusive upperInclusive : Bool} :
    (∃ condition, rangeCondition lower upper lowerInclusive upperInclusive = .ok condition) ↔
      lower.Unescapes ∧ upper.Unescapes := by
  rw [← exists_readBoundText_iff, ← exists_readBoundText_iff, rangeCondition]
  cases readBoundText lower with
  | error fault => simp [bind, Except.bind]
  | ok lowerText =>
    cases readBoundText upper with
    | error fault => simp [bind, Except.bind]
    | ok upperText => simp [bind, Except.bind, pure, Except.pure]

theorem exists_names_iff {token : Placed Token} :
    (∃ name, Names token name) ↔ token.value.isName = true ∧ token.value.Unescapes := by
  rcases token with ⟨value, position⟩
  cases value
  all_goals simp [Names, Token.isName, Token.Unescapes, exists_unescapeAt_iff]

/-! ## What is spelled is derivable -/

/-- The symbol of a phrase. -/
def Phrase.symbol : Phrase → Symbol
  | .body _ => .body
  | .clause _ => .clause
  | .parts _ => .further
  | .sequence _ => .query

/-! Suffixes, joints and signs have no escapes. -/

theorem unescapes_of_isSuffix {token : Token} (suffix : token.IsSuffix) : token.Unescapes := by
  rcases suffix with ⟨number, rfl⟩ | ⟨number, rfl⟩
  · trivial
  · trivial

theorem unescapes_of_joints {joint : Tokens} (joins : joint.map Placed.value ∈ joints) :
    ∀ token ∈ joint, token.value.Unescapes := by
  have silent : ∀ values ∈ joints, ∀ value ∈ values, value.Unescapes := by
    simp [joints, Token.Unescapes]
  exact fun token member => silent _ joins _ (List.mem_map_of_mem member)

theorem unescapes_of_signs {sign : Tokens} (modifies : sign.map Placed.value ∈ signs) :
    ∀ token ∈ sign, token.value.Unescapes := by
  have silent : ∀ values ∈ signs, ∀ value ∈ values, value.Unescapes := by
    simp [signs, Token.Unescapes]
  exact fun token member => silent _ modifies _ (List.mem_map_of_mem member)

section

variable {budget : Nat} {field : Text} {tokens : Tokens} {phrase : Phrase}

theorem Spells.grammatical (spelled : Spells budget field tokens phrase) :
    Grammatical budget phrase.symbol (tokens.map Placed.value) := by
  induction spelled with
  | word read suffixes => exact .bare (exists_wordCondition?_iff.1 ⟨_, read⟩).1 suffixes
  | quoted value _ suffixes =>
    rw [List.map_cons, value, suffixes]
    exact .quoted
  | range value _ suffixes =>
    rw [List.map_cons, value, suffixes]
    exact .range
  | parentheses opens _ closes suffixes ih =>
    rw [List.map_cons, List.map_append, List.map_cons, opens, closes, suffixes]
    exact .parentheses ih
  | unnamed _ ih => exact .unnamed ih
  | named names separates _ ih =>
    rw [List.map_cons, List.map_cons, separates]
    exact .named (exists_names_iff.1 ⟨_, names⟩).1 ih
  | done => exact .done
  | part joins modifies _ _ clause rest =>
    rw [List.map_append, List.map_append, List.map_append]
    exact .further (mem_joints_iff.2 ⟨_, joins⟩) (mem_signs_iff.2 ⟨_, modifies⟩) clause rest
  | sequence modifies _ _ clause rest =>
    rw [List.map_append, List.map_append]
    exact .query (mem_signs_iff.2 ⟨_, modifies⟩) clause rest

theorem Spells.unescapes (spelled : Spells budget field tokens phrase) :
    ∀ token ∈ tokens, token.value.Unescapes := by
  induction spelled with
  | word read suffixes =>
    refine List.forall_mem_cons.2 ⟨(exists_wordCondition?_iff.1 ⟨_, read⟩).2, ?_⟩
    exact fun mark member => unescapes_of_isSuffix (isSuffix_of_wordSuffixes suffixes mark member)
  | quoted value read suffixes =>
    refine List.forall_mem_cons.2 ⟨?_, ?_⟩
    · rw [value]
      exact exists_unescapeAt_iff.1 ⟨_, read⟩
    · have marks := isSuffix_of_wordSuffixes (mem_wordSuffixes suffixes)
      exact fun mark member => unescapes_of_isSuffix (marks mark member)
  | range value read suffixes =>
    refine List.forall_mem_cons.2 ⟨?_, ?_⟩
    · rw [value]
      exact exists_rangeCondition_iff.1 ⟨_, read⟩
    · have marks := isSuffix_of_boostTokens suffixes
      exact fun mark member => unescapes_of_isSuffix (marks mark member)
  | parentheses opens _ closes suffixes ih =>
    have marks := isSuffix_of_boostTokens suffixes
    refine List.forall_mem_cons.2 ⟨by rw [opens]; trivial, ?_⟩
    refine List.forall_mem_append.2 ⟨ih, List.forall_mem_cons.2 ⟨by rw [closes]; trivial, ?_⟩⟩
    exact fun mark member => unescapes_of_isSuffix (marks mark member)
  | unnamed _ ih => exact ih
  | named names separates _ ih =>
    refine List.forall_mem_cons.2 ⟨(exists_names_iff.1 ⟨_, names⟩).2, ?_⟩
    exact List.forall_mem_cons.2 ⟨by rw [separates]; trivial, ih⟩
  | done => exact fun _ absent => absurd absent List.not_mem_nil
  | part joins modifies _ _ clause rest =>
    have joint := unescapes_of_joints (mem_joints_iff.2 ⟨_, joins⟩)
    have sign := unescapes_of_signs (mem_signs_iff.2 ⟨_, modifies⟩)
    simp only [List.forall_mem_append]
    exact ⟨joint, sign, clause, rest⟩
  | sequence modifies _ _ clause rest =>
    have sign := unescapes_of_signs (mem_signs_iff.2 ⟨_, modifies⟩)
    simp only [List.forall_mem_append]
    exact ⟨sign, clause, rest⟩

end

/-! ## What is derivable is spelled -/

/-- The tokens spell some phrase of the kind that a symbol stands for. -/
def SpellsSome (depth : Nat) (field : Text) (tokens : Tokens) : Symbol → Prop
  | .body => ∃ query, Spells depth field tokens (.body query)
  | .clause => ∃ query, Spells depth field tokens (.clause query)
  | .further => ∃ parts, Spells depth field tokens (.parts parts)
  | .query => ∃ query, Spells depth field tokens (.sequence query)

/-- Derivable tokens whose escapes can be read spell something about any field, by induction on the
derivation. -/
theorem Grammatical.spellsSome {depth : Nat} {symbol : Symbol} {values : List Token}
    (derivable : Grammatical depth symbol values) {tokens : Tokens}
    (same : tokens.map Placed.value = values)
    (unescapes : ∀ token ∈ tokens, token.value.Unescapes) (field : Text) :
    SpellsSome depth field tokens symbol := by
  induction derivable generalizing tokens field with
  | bare isBare suffixes =>
    rcases List.map_eq_cons_iff.1 same with ⟨token, suffix, rfl, rfl, rfl⟩
    have readable := unescapes token List.mem_cons_self
    rcases exists_wordCondition?_iff.2 ⟨isBare, readable⟩ with ⟨condition, read⟩
    exact ⟨_, .word read suffixes⟩
  | quoted =>
    rcases List.map_eq_cons_iff.1 same with ⟨token, suffix, rfl, value, suffixes⟩
    have readable := unescapes token List.mem_cons_self
    rw [value] at readable
    rcases exists_unescapeAt_iff.2 readable with ⟨text, read⟩
    exact ⟨_, .quoted value read suffixes⟩
  | range =>
    rcases List.map_eq_cons_iff.1 same with ⟨token, suffix, rfl, value, suffixes⟩
    have readable := unescapes token List.mem_cons_self
    rw [value] at readable
    rcases exists_rangeCondition_iff.2 readable with ⟨condition, read⟩
    exact ⟨_, .range value read suffixes⟩
  | parentheses _ ih =>
    rcases List.map_eq_cons_iff.1 same with ⟨opening, behind, rfl, opens, enclosed⟩
    rcases List.map_eq_append_iff.1 enclosed with ⟨content, behind, rfl, inside, ending⟩
    rcases List.map_eq_cons_iff.1 ending with ⟨closing, suffix, rfl, closes, suffixes⟩
    simp only [List.forall_mem_cons, List.forall_mem_append] at unescapes
    rcases ih inside unescapes.2.1 field with ⟨query, spelled⟩
    exact ⟨_, .parentheses opens spelled closes suffixes⟩
  | unnamed _ ih =>
    rcases ih same unescapes field with ⟨query, body⟩
    exact ⟨query, .unnamed body⟩
  | named isName _ ih =>
    rcases List.map_eq_cons_iff.1 same with ⟨token, behind, rfl, rfl, ending⟩
    rcases List.map_eq_cons_iff.1 ending with ⟨colon, rest, rfl, separates, following⟩
    simp only [List.forall_mem_cons] at unescapes
    rcases exists_names_iff.2 ⟨isName, unescapes.1⟩ with ⟨name, names⟩
    rcases ih following unescapes.2.2 name with ⟨query, body⟩
    exact ⟨query, .named names separates body⟩
  | done =>
    obtain rfl := List.map_eq_nil_iff.1 same
    exact ⟨[], .done⟩
  | further joins modifies _ _ clause rest =>
    rcases List.map_eq_append_iff.1 same with ⟨joint, behind, rfl, rfl, signed⟩
    rcases List.map_eq_append_iff.1 signed with ⟨sign, behind, rfl, rfl, ending⟩
    rcases List.map_eq_append_iff.1 ending with ⟨first, others, rfl, inFirst, inOthers⟩
    simp only [List.forall_mem_append] at unescapes
    rcases mem_joints_iff.1 joins with ⟨conjunction, joins⟩
    rcases mem_signs_iff.1 modifies with ⟨modifier, modifies⟩
    rcases clause inFirst unescapes.2.2.1 field with ⟨query, clause⟩
    rcases rest inOthers unescapes.2.2.2 field with ⟨parts, rest⟩
    exact ⟨_, .part joins modifies clause rest⟩
  | query modifies _ _ clause rest =>
    rcases List.map_eq_append_iff.1 same with ⟨sign, behind, rfl, rfl, ending⟩
    rcases List.map_eq_append_iff.1 ending with ⟨first, others, rfl, inFirst, inOthers⟩
    simp only [List.forall_mem_append] at unescapes
    rcases mem_signs_iff.1 modifies with ⟨modifier, modifies⟩
    rcases clause inFirst unescapes.2.1 field with ⟨query, clause⟩
    rcases rest inOthers unescapes.2.2 field with ⟨parts, rest⟩
    exact ⟨_, .sequence modifies clause rest⟩

/-! ## Whole texts -/

/-- A text is read as a query about a field exactly when it is grammatical, whatever the field. -/
theorem Query.exists_parse_iff {text field : Text} :
    (∃ query, Query.parse text field = .ok query) ↔ IsQuery text := by
  constructor
  · rintro ⟨query, accepted⟩
    rcases Query.parse_eq_ok_iff.1 accepted with ⟨scanned, scans, spelled⟩
    exact ⟨scanned, scans, spelled.grammatical, spelled.unescapes⟩
  · rintro ⟨scanned, scans, derivable, unescapes⟩
    rcases derivable.spellsSome rfl unescapes field with ⟨query, spelled⟩
    exact ⟨query, Query.parse_eq_ok_iff.2 ⟨scanned, scans, spelled⟩⟩

theorem Query.validate_of_parse_error {text field : Text} {fault : Placed Fault}
    (rejected : Query.parse text field = .error fault) (notBlank : text.all isBlank = false) :
    Query.validate text field = .error (.malformed fault) := by
  rw [Query.validate, notBlank, rejected]
  rfl

/-- The parser accepts exactly the grammar.  Every other text is turned down with a fault, and as
malformed unless it is blank. -/
theorem Query.parse_accepts_grammar (text field : Text) :
    ((∃ query, Query.parse text field = .ok query) ↔ IsQuery text) ∧
    (¬ IsQuery text → ∃ fault, Query.parse text field = .error fault ∧
      (text.all isBlank = false → Query.validate text field = .error (.malformed fault))) := by
  refine ⟨Query.exists_parse_iff, fun other => ?_⟩
  cases outcome : Query.parse text field with
  | ok query => exact absurd (Query.exists_parse_iff.1 ⟨query, outcome⟩) other
  | error fault => exact ⟨fault, rfl, Query.validate_of_parse_error outcome⟩

end AlarmQuery
