import AlarmQuery.Proofs.Query.Spelling

/-!
# What is spelled is read

A phrase is read from any tokens that spell it, in front of anything that cannot belong to it.
With what `Spells` says of what readers take, a text is a query exactly when its tokens spell the
query, which is `Query.parse_eq_ok_iff`.
-/

namespace AlarmQuery

/-! ## What follows -/

/-- Neither a slop nor a boost comes next. -/
def NoSuffix (rest : Tokens) : Prop := ∀ token ∈ rest.head?, ¬ token.value.IsSuffix

/-- Nothing comes next, or a closing parenthesis. -/
def Closes (rest : Tokens) : Prop := ∀ token ∈ rest.head?, token.value = .closeParen

/-- What comes next cannot belong to the clause in front of it. -/
def EndsClause (rest : Tokens) : Prop := continues rest = true ∨ Closes rest

/-- What holds of the first of two sequences, or of the second where the first is empty, holds of
both together. -/
theorem forall_head?_append {property : Placed Token → Prop} {first second : Tokens}
    (one : ∀ token ∈ first, property token) (two : ∀ token ∈ second.head?, property token) :
    ∀ token ∈ (first ++ second).head?, property token := by
  cases first with
  | nil => exact two
  | cons head _ =>
    intro token next
    rw [← Option.some.inj next]
    exact one head List.mem_cons_self

section

variable {rest : Tokens}

theorem Closes.not_continues (closes : Closes rest) : continues rest = false := by
  cases rest with
  | nil => rfl
  | cons token rest =>
    have closing : token.value = .closeParen := closes token rfl
    simp only [continues, closing]

theorem Closes.endsClause (closes : Closes rest) : EndsClause rest := Or.inr closes

theorem EndsClause.noSuffix (ends : EndsClause rest) : NoSuffix rest := by
  intro token next suffix
  rcases ends with more | closes
  · cases rest with
    | nil => cases more
    | cons head rest =>
      obtain rfl := Option.some.inj next
      rcases suffix with ⟨number, slop⟩ | ⟨number, boost⟩
      · simp [continues, slop] at more
      · simp [continues, boost] at more
  · rcases suffix with ⟨number, slop⟩ | ⟨number, boost⟩
    · exact Token.noConfusion ((closes token next).symm.trans slop)
    · exact Token.noConfusion ((closes token next).symm.trans boost)

theorem EndsClause.ne_colon (ends : EndsClause rest) :
    ∀ token ∈ rest.head?, token.value ≠ .colon := by
  intro token next separates
  rcases ends with more | closes
  · cases rest with
    | nil => cases more
    | cons head rest =>
      obtain rfl := Option.some.inj next
      simp [continues, separates] at more
  · exact Token.noConfusion ((closes token next).symm.trans separates)

end

/-! ## Suffixes -/

section

variable {rest suffix : Tokens} {slop number : Option Text}

theorem takeSlop_append (spelled : suffix.map Placed.value = slopTokens slop)
    (noSlop : ∀ token ∈ rest.head?, ∀ text, token.value ≠ .slop text) :
    takeSlop (suffix ++ rest) = (slop, rest) := by
  cases slop with
  | none =>
    obtain rfl : suffix = [] := List.map_eq_nil_iff.1 spelled
    cases rest with
    | nil => rfl
    | cons token rest =>
      rw [List.nil_append, takeSlop]
      split
      · rename_i text value
        exact absurd value (noSlop token rfl text)
      · rfl
  | some text =>
    rcases List.map_eq_singleton_iff.1 spelled with ⟨token, rfl, value⟩
    simp only [List.singleton_append, takeSlop, value]

theorem takeBoost_append (spelled : suffix.map Placed.value = boostTokens number)
    (noBoost : ∀ token ∈ rest.head?, ∀ text, token.value ≠ .boost text) :
    takeBoost (suffix ++ rest) = (number.map Boost.ofDecimal, rest) := by
  cases number with
  | none =>
    obtain rfl : suffix = [] := List.map_eq_nil_iff.1 spelled
    cases rest with
    | nil => rfl
    | cons token rest =>
      rw [List.nil_append, takeBoost]
      split
      · rename_i text value
        exact absurd value (noBoost token rfl text)
      · rfl
  | some text =>
    rcases List.map_eq_singleton_iff.1 spelled with ⟨token, rfl, value⟩
    simp only [List.singleton_append, takeBoost, value, Option.map_some]

theorem NoSuffix.ne_slop (ends : NoSuffix rest) :
    ∀ token ∈ rest.head?, ∀ text, token.value ≠ .slop text :=
  fun token next text value => ends token next (Or.inl ⟨text, value⟩)

theorem NoSuffix.ne_boost (ends : NoSuffix rest) :
    ∀ token ∈ rest.head?, ∀ text, token.value ≠ .boost text :=
  fun token next text value => ends token next (Or.inr ⟨text, value⟩)

theorem ne_slop_of_boostTokens (spelled : suffix.map Placed.value = boostTokens number) :
    ∀ token ∈ suffix, ∀ text, token.value ≠ .slop text := by
  intro token member text value
  have listed := List.mem_map_of_mem (f := Placed.value) member
  rw [spelled, value] at listed
  cases number with
  | none => exact absurd listed List.not_mem_nil
  | some other => exact Token.noConfusion (List.mem_singleton.1 listed)

theorem withBoost_append (query : Query)
    (spelled : suffix.map Placed.value = boostTokens number) (ends : NoSuffix rest) :
    withBoost query (suffix ++ rest) =
      (query.boostedBy (number.map Boost.ofDecimal), rest) := by
  rw [withBoost, takeBoost_append spelled ends.ne_boost]

/-- A slop in front of a boost is taken first. -/
theorem takeSuffix_slop_boost
    (spelled : suffix.map Placed.value = slopTokens slop ++ boostTokens number)
    (ends : NoSuffix rest) :
    takeSuffix (suffix ++ rest) = (slop, number.map Boost.ofDecimal, rest) := by
  rcases List.map_eq_append_iff.1 spelled with ⟨slops, boosts, rfl, isSlop, isBoost⟩
  have noSlop := forall_head?_append (ne_slop_of_boostTokens isBoost) ends.ne_slop
  have again := takeSlop_append (show ([] : Tokens).map Placed.value = slopTokens none from rfl)
    ends.ne_slop
  rw [takeSuffix, List.append_assoc, takeSlop_append isSlop noSlop]
  dsimp only
  rw [takeBoost_append isBoost ends.ne_boost]
  dsimp only
  split
  · rename_i late
    simp only [Bool.and_eq_true, Option.isNone_iff_eq_none] at late
    rw [List.nil_append] at again
    rw [again, late.1]
  · rfl

theorem takeSuffix_append (spelled : suffix.map Placed.value ∈ wordSuffixes slop number)
    (ends : NoSuffix rest) :
    takeSuffix (suffix ++ rest) = (slop, number.map Boost.ofDecimal, rest) := by
  simp only [wordSuffixes, List.mem_cons, List.not_mem_nil, or_false] at spelled
  rcases spelled with inOrder | reversed
  · exact takeSuffix_slop_boost inOrder ends
  · -- only behind a boost is the slop taken late
    cases number with
    | none => exact takeSuffix_slop_boost (reversed.trans (List.append_nil _).symm) ends
    | some text =>
      rcases List.map_eq_cons_iff.1 reversed with ⟨boost, slops, rfl, value, isSlop⟩
      have noSlop : takeSlop (boost :: (slops ++ rest)) = (none, boost :: (slops ++ rest)) := by
        simp only [takeSlop, value]
      have boosted : takeBoost (boost :: (slops ++ rest)) =
          (some (.ofDecimal text), slops ++ rest) := by
        simp only [takeBoost, value]
      rw [takeSuffix, List.cons_append, noSlop]
      dsimp only
      rw [boosted]
      dsimp only
      rw [takeSlop_append isSlop ends.ne_slop]
      rfl

end

/-- The tokens that a clause begins with. -/
def Token.begins : Token → Bool
  | .openParen | .star | .bareOperator _ | .quoted _ | .term _ | .starred _ | .pattern _
  | .regexp _ | .range .. => true
  | .and | .or | .not | .plus | .minus | .closeParen | .colon | .boost _ | .slop _ => false

/-- A token that begins a clause comes next. -/
def BeginsClause (tokens : Tokens) : Prop :=
  ∃ first rest, tokens = first :: rest ∧ first.value.begins = true

theorem begins_of_wordCondition? {field : Text} {slop : Option Text} {token : Placed Token}
    {condition : Except (Placed Fault) Condition}
    (read : wordCondition? field slop token = some condition) : token.value.begins = true := by
  cases value : token.value
  all_goals simp [wordCondition?, value, Token.begins] at read ⊢

section

variable {budget : Nat} {field : Text} {tokens : Tokens} {query : Query}

theorem Spells.beginsClause_of_body (spelled : Spells budget field tokens (.body query)) :
    BeginsClause tokens := by
  cases spelled with
  | word read _ => exact ⟨_, _, rfl, begins_of_wordCondition? read⟩
  | quoted value _ _ => exact ⟨_, _, rfl, by rw [value]; rfl⟩
  | range value _ _ => exact ⟨_, _, rfl, by rw [value]; rfl⟩
  | parentheses opens _ _ _ => exact ⟨_, _, rfl, by rw [opens]; rfl⟩

theorem Spells.beginsClause (spelled : Spells budget field tokens (.clause query)) :
    BeginsClause tokens := by
  cases spelled with
  | unnamed body => exact body.beginsClause_of_body
  | named names _ _ =>
    rcases names with ⟨word, value, _⟩ | ⟨value, _⟩
    · exact ⟨_, _, rfl, by rw [value]; rfl⟩
    · exact ⟨_, _, rfl, by rw [value]; rfl⟩

end

/-! ## Joints and signs -/

section

variable {conjunction : Conjunction} {modifier : Modifier} {joint sign tokens : Tokens}

theorem takeModifier_append (modifies : sign.map Placed.value ∈ modifier.spellings)
    (begins : BeginsClause tokens) : takeModifier (sign ++ tokens) = (modifier, tokens) := by
  cases modifier with
  | none =>
    simp only [Modifier.spellings, List.mem_singleton, List.map_eq_nil_iff] at modifies
    subst modifies
    rcases begins with ⟨first, rest, rfl, starts⟩
    rw [List.nil_append, takeModifier]
    cases value : first.value
    all_goals simp [value, Token.begins] at starts ⊢
  | required =>
    rcases List.map_eq_singleton_iff.1 (List.mem_singleton.1 modifies) with ⟨plus, rfl, value⟩
    simp only [List.singleton_append, takeModifier, value]
  | prohibited =>
    simp only [Modifier.spellings, List.mem_cons, List.not_mem_nil, or_false] at modifies
    rcases modifies with minus | negation
    · rcases List.map_eq_singleton_iff.1 minus with ⟨token, rfl, value⟩
      simp only [List.singleton_append, takeModifier, value]
    · rcases List.map_eq_singleton_iff.1 negation with ⟨token, rfl, value⟩
      simp only [List.singleton_append, takeModifier, value]

/-- Neither a clause nor its sign begins with a conjunction or with what ends a sequence. -/
theorem takeConjunction_sign_append (modifies : sign.map Placed.value ∈ modifier.spellings)
    (begins : BeginsClause tokens) :
    takeConjunction (sign ++ tokens) = (.none, sign ++ tokens) ∧
      continues (sign ++ tokens) = true := by
  have head : ∃ first rest, sign ++ tokens = first :: rest ∧
      (first.value ∈ [Token.plus, .minus, .not] ∨ first.value.begins = true) := by
    rcases begins with ⟨first, rest, rfl, starts⟩
    cases sign with
    | nil => exact ⟨first, rest, rfl, Or.inr starts⟩
    | cons token sign =>
      refine ⟨token, sign ++ first :: rest, rfl, Or.inl ?_⟩
      have listed : ∀ values ∈ modifier.spellings, ∀ value ∈ values,
          value ∈ [Token.plus, .minus, .not] := by
        cases modifier <;> decide
      exact listed _ modifies _ List.mem_cons_self
  rcases head with ⟨first, rest, same, starts⟩
  rw [same, takeConjunction, continues]
  cases value : first.value
  all_goals simp [value, Token.begins] at starts ⊢

theorem takeConjunction_append (joins : joint.map Placed.value ∈ conjunction.spellings)
    (modifies : sign.map Placed.value ∈ modifier.spellings) (begins : BeginsClause tokens) :
    takeConjunction (joint ++ (sign ++ tokens)) = (conjunction, sign ++ tokens) ∧
      continues (joint ++ (sign ++ tokens)) = true := by
  cases conjunction with
  | none =>
    obtain rfl : joint = [] := List.map_eq_nil_iff.1 (List.mem_singleton.1 joins)
    rw [List.nil_append]
    exact takeConjunction_sign_append modifies begins
  | and =>
    rcases List.map_eq_singleton_iff.1 (List.mem_singleton.1 joins) with ⟨token, rfl, value⟩
    simp only [List.singleton_append, takeConjunction, continues, value, and_self]
  | or =>
    rcases List.map_eq_singleton_iff.1 (List.mem_singleton.1 joins) with ⟨token, rfl, value⟩
    simp only [List.singleton_append, takeConjunction, continues, value, and_self]

end

/-! ## Operands and fields -/

section

variable {field : Text} {token : Placed Token} {suffix rest : Tokens} {slop number : Option Text}
  {condition : Condition}

theorem readOperand_word (stop : Nat)
    (read : wordCondition? field slop token = some (.ok condition))
    (suffixes : suffix.map Placed.value ∈ wordSuffixes slop number) (ends : NoSuffix rest) :
    readOperand stop field (token :: (suffix ++ rest)) =
      .ok ((Query.leaf ⟨field, condition⟩).boostedBy (number.map Boost.ofDecimal), rest) := by
  rw [readOperand]
  split
  · rename_i contents value
    rw [wordCondition?, value] at read
    cases read
  · rename_i lower upper lowerInclusive upperInclusive value
    rw [wordCondition?, value] at read
    cases read
  · rw [takeSuffix_append suffixes ends]
    dsimp only
    rw [read]
    rfl

theorem readOperand_quoted (stop : Nat) {contents text : Text}
    (value : token.value = .quoted contents)
    (read : unescapeAt (token.position + 1) contents = .ok text)
    (suffixes : suffix.map Placed.value = slopTokens slop ++ boostTokens number)
    (ends : NoSuffix rest) :
    readOperand stop field (token :: (suffix ++ rest)) =
      .ok ((Query.leaf ⟨field, .term text⟩).boostedBy (number.map Boost.ofDecimal), rest) := by
  rcases List.map_eq_append_iff.1 suffixes with ⟨slops, boosts, rfl, isSlop, isBoost⟩
  have noSlop := forall_head?_append (ne_slop_of_boostTokens isBoost) ends.ne_slop
  simp only [readOperand, value, read, List.append_assoc, takeSlop_append isSlop noSlop,
    withBoost_append _ isBoost ends]
  rfl

theorem readOperand_range (stop : Nat) {lower upper : Bound} {lowerInclusive upperInclusive : Bool}
    (value : token.value = .range lower upper lowerInclusive upperInclusive)
    (read : rangeCondition lower upper lowerInclusive upperInclusive = .ok condition)
    (suffixes : suffix.map Placed.value = boostTokens number) (ends : NoSuffix rest) :
    readOperand stop field (token :: (suffix ++ rest)) =
      .ok ((Query.leaf ⟨field, condition⟩).boostedBy (number.map Boost.ofDecimal), rest) := by
  simp only [readOperand, value, read, withBoost_append _ suffixes ends]
  rfl

theorem readBody_of_ne_openParen (stop : Nat) (inner : Option (Text → Reader Query))
    (other : token.value ≠ .openParen) :
    readBody stop inner field (token :: rest) = readOperand stop field (token :: rest) := by
  rw [readBody.eq_def]
  exact if_neg other

theorem takeField?_eq_none (other : ∀ next ∈ rest.head?, next.value ≠ .colon) :
    takeField? (token :: rest) = none := by
  cases rest with
  | nil => rfl
  | cons next rest =>
    rw [takeField?]
    exact if_neg (other next rfl)

theorem takeField?_openParen (opens : token.value = .openParen) :
    takeField? (token :: rest) = none := by
  cases rest with
  | nil => rfl
  | cons next rest => simp only [takeField?, opens, ite_self]

theorem takeField?_named {name : Text} {colon : Placed Token} (names : Names token name)
    (separates : colon.value = .colon) :
    takeField? (token :: colon :: rest) = some (.ok name, rest) := by
  rcases names with ⟨word, value, read⟩ | ⟨value, rfl⟩
  · simp only [takeField?, separates, value, read, if_true]
  · simp only [takeField?, separates, value, if_true]

end

theorem Spells.takeField?_body {budget : Nat} {field : Text} {tokens rest : Tokens}
    {query : Query} (spelled : Spells budget field tokens (.body query))
    (ends : EndsClause rest) : takeField? (tokens ++ rest) = none := by
  have operand {token : Placed Token} {suffix : Tokens}
      (suffixes : ∀ mark ∈ suffix, mark.value.IsSuffix) :
      takeField? (token :: (suffix ++ rest)) = none := by
    refine takeField?_eq_none (forall_head?_append ?_ ends.ne_colon)
    intro mark member colon
    rcases suffixes mark member with ⟨number, value⟩ | ⟨number, value⟩
    · exact Token.noConfusion (colon.symm.trans value)
    · exact Token.noConfusion (colon.symm.trans value)
  cases spelled with
  | word _ suffixes => exact operand (isSuffix_of_wordSuffixes suffixes)
  | quoted _ _ suffixes =>
    exact operand (isSuffix_of_wordSuffixes (mem_wordSuffixes suffixes))
  | range _ _ suffixes => exact operand (isSuffix_of_boostTokens suffixes)
  | parentheses opens _ _ _ => exact takeField?_openParen opens

/-! ## Phrases -/

/-- In front of what cannot belong to it, the phrase is what the tokens are read as. -/
def Phrase.Reads (stop budget : Nat) (field : Text) (tokens : Tokens) : Phrase → Prop
  | .body query => ∀ rest, EndsClause rest →
      readBody stop (innerReader? stop budget) field (tokens ++ rest) = .ok (query, rest)
  | .clause query => ∀ rest, EndsClause rest →
      readClause stop (innerReader? stop budget) field (tokens ++ rest) = .ok (query, rest)
  | .parts others => ∀ rest, Closes rest → EndsClause (tokens ++ rest) ∧
      readParts (AlarmQuery.clause stop (innerReader? stop budget) field) (tokens ++ rest) =
        .ok (others, rest)
  | .sequence query => ∀ rest, Closes rest →
      (queryReader stop budget field).run (tokens ++ rest) = .ok (query, rest)

section

variable {stop budget : Nat} {field : Text}

theorem reads_parentheses {opening closing : Placed Token} {content suffix : Tokens}
    {query : Query} {number : Option Text} (opens : opening.value = .openParen)
    (inner : (Phrase.sequence query).Reads stop budget field content)
    (closes : closing.value = .closeParen)
    (suffixes : suffix.map Placed.value = boostTokens number) :
    (Phrase.body (query.boostedBy (number.map Boost.ofDecimal))).Reads stop (budget + 1) field
      (opening :: (content ++ closing :: suffix)) := by
  intro rest ends
  have closed : Closes (closing :: (suffix ++ rest)) := by
    intro token next
    rw [← Option.some.inj next]
    exact closes
  rw [List.cons_append, List.append_assoc, List.cons_append, readBody.eq_def]
  dsimp only
  rw [if_pos opens, innerReader?]
  dsimp only
  rw [inner _ closed]
  dsimp only
  rw [if_pos closes, withBoost_append query suffixes ends.noSuffix]

theorem BeginsClause.append {tokens : Tokens} (begins : BeginsClause tokens) (rest : Tokens) :
    BeginsClause (tokens ++ rest) := by
  rcases begins with ⟨first, others, rfl, starts⟩
  exact ⟨first, others ++ rest, rfl, starts⟩

theorem readParts_of_run {reader : Reader Query} {tokens behind rest : Tokens} {query : Query}
    {parts : List Part} (more : continues tokens = true)
    (run : reader.run (takeModifier (takeConjunction tokens).2).2 = .ok (query, behind))
    (later : readParts reader behind = .ok (parts, rest)) :
    readParts reader tokens = .ok
      (⟨(takeConjunction tokens).1, (takeModifier (takeConjunction tokens).2).1, query⟩ :: parts,
        rest) := by
  rw [readParts_eq_of_continues reader more, run]
  dsimp only
  rw [later]
  rfl

theorem reads_part {conjunction : Conjunction} {modifier : Modifier}
    {joint sign tokens others : Tokens} {query : Query} {parts : List Part}
    (joins : joint.map Placed.value ∈ conjunction.spellings)
    (modifies : sign.map Placed.value ∈ modifier.spellings) (begins : BeginsClause tokens)
    (first : (Phrase.clause query).Reads stop budget field tokens)
    (later : (Phrase.parts parts).Reads stop budget field others) :
    (Phrase.parts (⟨conjunction, modifier, query⟩ :: parts)).Reads stop budget field
      (joint ++ (sign ++ (tokens ++ others))) := by
  intro rest closes
  rcases later rest closes with ⟨ends, read⟩
  have here := begins.append (others ++ rest)
  rcases takeConjunction_append joins modifies here with ⟨conjoins, more⟩
  have signed := takeModifier_append modifies here
  rw [show joint ++ (sign ++ (tokens ++ others)) ++ rest =
    joint ++ (sign ++ (tokens ++ (others ++ rest))) by simp]
  have run : (clause stop (innerReader? stop budget) field).run
      (takeModifier (takeConjunction (joint ++ (sign ++ (tokens ++ (others ++ rest))))).2).2 =
        .ok (query, others ++ rest) := by
    rw [conjoins, signed]
    exact first (others ++ rest) ends
  have step := readParts_of_run more run read
  rw [conjoins, signed] at step
  exact ⟨Or.inl more, step⟩

theorem reads_sequence {modifier : Modifier} {sign tokens others : Tokens} {query : Query}
    {parts : List Part} (modifies : sign.map Placed.value ∈ modifier.spellings)
    (begins : BeginsClause tokens)
    (first : (Phrase.clause query).Reads stop budget field tokens)
    (later : (Phrase.parts parts).Reads stop budget field others) :
    (Phrase.sequence (assemble ⟨.none, modifier, query⟩ parts)).Reads stop budget field
      (sign ++ (tokens ++ others)) := by
  intro rest closes
  rcases later rest closes with ⟨ends, read⟩
  have run : (clause stop (innerReader? stop budget) field).run (tokens ++ (others ++ rest)) =
      .ok (query, others ++ rest) := first (others ++ rest) ends
  rw [queryReader_eq]
  show readSequence _ (sign ++ (tokens ++ others) ++ rest) = _
  rw [List.append_assoc, List.append_assoc, readSequence,
    takeModifier_append modifies (begins.append (others ++ rest))]
  dsimp only
  rw [run]
  dsimp only
  rw [read]
  rfl

end

/-- What is spelled is read back, by induction on the spelling.  No rule of the grammar leaves the
readers a choice: the next token decides which one applies. -/
theorem Spells.reads {budget : Nat} {field : Text} {tokens : Tokens} {phrase : Phrase}
    (spelled : Spells budget field tokens phrase) (stop : Nat) :
    phrase.Reads stop budget field tokens := by
  induction spelled with
  | @word budget field token suffix _ _ _ read suffixes =>
    intro rest ends
    have other : token.value ≠ .openParen := by
      intro opens
      rw [wordCondition?, opens] at read
      cases read
    rw [List.cons_append, readBody_of_ne_openParen stop _ other]
    exact readOperand_word stop read suffixes ends.noSuffix
  | quoted value read suffixes =>
    intro rest ends
    rw [List.cons_append, readBody_of_ne_openParen stop _ (value.trans_ne Token.noConfusion)]
    exact readOperand_quoted stop value read suffixes ends.noSuffix
  | range value read suffixes =>
    intro rest ends
    rw [List.cons_append, readBody_of_ne_openParen stop _ (value.trans_ne Token.noConfusion)]
    exact readOperand_range stop value read suffixes ends.noSuffix
  | parentheses opens _ closes suffixes ih => exact reads_parentheses opens ih closes suffixes
  | unnamed body ih =>
    intro rest ends
    rw [readClause, body.takeField?_body ends]
    exact ih rest ends
  | named names separates _ ih =>
    intro rest ends
    rw [List.cons_append, List.cons_append, readClause, takeField?_named names separates]
    exact ih rest ends
  | done =>
    intro rest closes
    rw [List.nil_append, readParts.eq_def, closes.not_continues]
    exact ⟨closes.endsClause, rfl⟩
  | part joins modifies first _ clause rest =>
    exact reads_part joins modifies first.beginsClause clause rest
  | sequence modifies first _ clause rest =>
    exact reads_sequence modifies first.beginsClause clause rest

/-! ## Whole texts -/

/-- The tokens of a text are a query exactly when they spell it. -/
theorem Query.ofTokens_eq_ok_iff {scanned : Scanned} {field : Text} {query : Query} :
    Query.ofTokens scanned field = .ok query ↔
      Spells maxNesting field scanned.tokens (.sequence query) := by
  constructor
  · intro accepted
    rw [Query.ofTokens] at accepted
    split at accepted
    · cases accepted
    · rename_i found read
      obtain rfl := Except.ok.inj accepted
      rcases spelled_queryReader _ _ _ _ read with ⟨taken, split, spelled⟩
      rw [List.append_nil] at split
      rwa [split]
    · cases accepted
  · intro spelled
    have closes : Closes [] := fun _ impossible => nomatch impossible
    have read := spelled.reads scanned.stop [] closes
    rw [List.append_nil] at read
    rw [Query.ofTokens, read]

theorem Query.parse_eq_ok_iff {text field : Text} {query : Query} :
    Query.parse text field = .ok query ↔
      ∃ scanned, scan text = .ok scanned ∧
        Spells maxNesting field scanned.tokens (.sequence query) := by
  rw [Query.parse]
  cases scan text with
  | error fault => simp
  | ok scanned => simp [Query.ofTokens_eq_ok_iff]

/-- Every accepted query is derived from all of its tokens. -/
theorem derives_of_ofTokens {scanned : Scanned} {field : Text} {query : Query}
    (accepted : Query.ofTokens scanned field = .ok query) :
    Derives maxNesting field scanned.tokens (.sequence query) :=
  (Query.ofTokens_eq_ok_iff.1 accepted).derives

end AlarmQuery
