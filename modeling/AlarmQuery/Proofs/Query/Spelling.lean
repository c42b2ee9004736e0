import AlarmQuery.Proofs.Query.Derivation
import AlarmQuery.Proofs.Text.Unescape

/-!
# How queries are spelled

`Spells budget field tokens phrase` is the grammar of queries token by token.  It tells which
suffixes an operand may have and in which order they stand, where `Derives` takes any of them.
What a reader takes spells what it returns, which is proved reader by reader along their recursion.
-/

namespace AlarmQuery

/-! ## The grammar -/

/-- How a slop is written. -/
def slopTokens (slop : Option Text) : List Token := (slop.map Token.slop).toList

/-- How the number of a boost is written. -/
def boostTokens (number : Option Text) : List Token := (number.map Token.boost).toList

/-- How a slop and a boost may stand behind a word. -/
def wordSuffixes (slop number : Option Text) : List (List Token) :=
  [slopTokens slop ++ boostTokens number, boostTokens number ++ slopTokens slop]

/-- The tokens spell a phrase about a field, in which parentheses are nested at most as deep as
`budget` says. -/
inductive Spells : (budget : Nat) → (field : Text) → Tokens → Phrase → Prop
  | word {budget field token suffix slop number condition}
      (read : wordCondition? field slop token = some (.ok condition))
      (suffixes : suffix.map Placed.value ∈ wordSuffixes slop number) :
      Spells budget field (token :: suffix)
        (.body ((Query.leaf ⟨field, condition⟩).boostedBy (number.map Boost.ofDecimal)))
  /-- The slop of a quoted string means nothing. -/
  | quoted {budget field token suffix contents text slop number}
      (value : token.value = .quoted contents)
      (read : unescapeAt (token.position + 1) contents = .ok text)
      (suffixes : suffix.map Placed.value = slopTokens slop ++ boostTokens number) :
      Spells budget field (token :: suffix)
        (.body ((Query.leaf ⟨field, .term text⟩).boostedBy (number.map Boost.ofDecimal)))
  | range {budget field token suffix lower upper lowerInclusive upperInclusive condition number}
      (value : token.value = .range lower upper lowerInclusive upperInclusive)
      (read : rangeCondition lower upper lowerInclusive upperInclusive = .ok condition)
      (suffixes : suffix.map Placed.value = boostTokens number) :
      Spells budget field (token :: suffix)
        (.body ((Query.leaf ⟨field, condition⟩).boostedBy (number.map Boost.ofDecimal)))
  | parentheses {budget field opening content closing suffix query number}
      (opens : opening.value = .openParen)
      (inner : Spells budget field content (.sequence query))
      (closes : closing.value = .closeParen)
      (suffixes : suffix.map Placed.value = boostTokens number) :
      Spells (budget + 1) field (opening :: (content ++ closing :: suffix))
        (.body (query.boostedBy (number.map Boost.ofDecimal)))
  | unnamed {budget field tokens query} (body : Spells budget field tokens (.body query)) :
      Spells budget field tokens (.clause query)
  | named {budget field name token colon tokens query} (names : Names token name)
      (separates : colon.value = .colon) (body : Spells budget name tokens (.body query)) :
      Spells budget field (token :: colon :: tokens) (.clause query)
  | done {budget field} : Spells budget field [] (.parts [])
  | part {budget field conjunction modifier joint sign tokens others query parts}
      (joins : joint.map Placed.value ∈ Conjunction.spellings conjunction)
      (modifies : sign.map Placed.value ∈ Modifier.spellings modifier)
      (clause : Spells budget field tokens (.clause query))
      (rest : Spells budget field others (.parts parts)) :
      Spells budget field (joint ++ (sign ++ (tokens ++ others)))
        (.parts (⟨conjunction, modifier, query⟩ :: parts))
  | sequence {budget field modifier sign tokens others query parts}
      (modifies : sign.map Placed.value ∈ Modifier.spellings modifier)
      (clause : Spells budget field tokens (.clause query))
      (rest : Spells budget field others (.parts parts)) :
      Spells budget field (sign ++ (tokens ++ others))
        (.sequence (assemble ⟨.none, modifier, query⟩ parts))

/-! ### Suffixes -/

section

variable {suffix : Tokens} {slop number : Option Text}

theorem isSuffix_of_mem {token : Token} (member : token ∈ slopTokens slop ++ boostTokens number) :
    token.IsSuffix := by
  rcases List.mem_append.1 member with inSlop | inBoost
  · cases slop with
    | none => exact absurd inSlop List.not_mem_nil
    | some text => exact Or.inl ⟨text, List.mem_singleton.1 inSlop⟩
  · cases number with
    | none => exact absurd inBoost List.not_mem_nil
    | some text => exact Or.inr ⟨text, List.mem_singleton.1 inBoost⟩

theorem mem_wordSuffixes (same : suffix.map Placed.value = slopTokens slop ++ boostTokens number) :
    suffix.map Placed.value ∈ wordSuffixes slop number := by
  rw [same]
  exact List.mem_cons_self

theorem isSuffix_of_wordSuffixes (suffixes : suffix.map Placed.value ∈ wordSuffixes slop number) :
    ∀ mark ∈ suffix, mark.value.IsSuffix := by
  intro mark member
  have listed := List.mem_map_of_mem (f := Placed.value) member
  simp only [wordSuffixes, List.mem_cons, List.not_mem_nil, or_false] at suffixes
  rcases suffixes with same | same
  · rw [same] at listed
    exact isSuffix_of_mem listed
  · rw [same, List.mem_append, Or.comm, ← List.mem_append] at listed
    exact isSuffix_of_mem listed

theorem isSuffix_of_boostTokens (suffixes : suffix.map Placed.value = boostTokens number) :
    ∀ mark ∈ suffix, mark.value.IsSuffix := by
  have noSlop : suffix.map Placed.value = slopTokens none ++ boostTokens number := suffixes
  exact isSuffix_of_wordSuffixes (mem_wordSuffixes noSlop)

end

/-- What is spelled is derived. -/
theorem Spells.derives {budget : Nat} {field : Text} {tokens : Tokens} {phrase : Phrase}
    (spelled : Spells budget field tokens phrase) : Derives budget field tokens phrase := by
  induction spelled with
  | word read suffixes => exact .operand (.word read) (isSuffix_of_wordSuffixes suffixes)
  | @quoted _ field token _ _ text _ _ value read suffixes =>
    have meaning : Denotes field none token (.term text) := .quoted value read
    exact .operand meaning (isSuffix_of_wordSuffixes (mem_wordSuffixes suffixes))
  | @range _ field token _ _ _ _ _ condition _ value read suffixes =>
    have meaning : Denotes field none token condition := .range value read
    exact .operand meaning (isSuffix_of_boostTokens suffixes)
  | parentheses opens _ closes suffixes ih =>
    exact .parentheses opens ih closes (isSuffix_of_boostTokens suffixes)
  | unnamed _ ih => exact .unnamed ih
  | named names separates _ ih => exact .named names separates ih
  | done => exact .done
  | part joins modifies _ _ clause rest => exact .part joins modifies clause rest
  | sequence modifies _ _ clause rest => exact .sequence modifies clause rest

/-! ## What readers take is spelled -/

/-- A reading takes tokens that spell what it returns. -/
def Reading.Spelled {α : Type} (budget : Nat) (field : Text) (phrase : α → Phrase)
    (tokens : Tokens) (reading : Reading α) : Prop :=
  ∀ {value rest}, reading = .ok (value, rest) →
    ∃ taken, tokens = taken ++ rest ∧ Spells budget field taken (phrase value)

theorem exists_of_rangeCondition {lower upper : Bound} {lowerInclusive upperInclusive : Bool}
    {condition : Condition}
    (read : rangeCondition lower upper lowerInclusive upperInclusive = .ok condition) :
    ∃ lower upper, condition = .range lower upper lowerInclusive upperInclusive := by
  rw [rangeCondition] at read
  cases lowerRead : readBoundText lower with
  | error =>
    rw [lowerRead] at read
    cases read
  | ok lowerText =>
    cases upperRead : readBoundText upper with
    | error =>
      rw [lowerRead, upperRead] at read
      cases read
    | ok upperText =>
      rw [lowerRead, upperRead] at read
      exact ⟨lowerText, upperText, (Except.ok.inj read).symm⟩

theorem spelled_takeSlop (tokens : Tokens) :
    ∃ taken, tokens = taken ++ (takeSlop tokens).2 ∧
      taken.map Placed.value = slopTokens (takeSlop tokens).1 := by
  cases tokens with
  | nil => exact ⟨[], rfl, rfl⟩
  | cons token rest =>
    rw [takeSlop]
    split
    · rename_i number value
      exact ⟨[token], rfl, congrArg (fun value => [value]) value⟩
    · exact ⟨[], rfl, rfl⟩

theorem spelled_takeBoost (tokens : Tokens) :
    ∃ taken number, tokens = taken ++ (takeBoost tokens).2 ∧
      taken.map Placed.value = boostTokens number ∧
      (takeBoost tokens).1 = number.map Boost.ofDecimal := by
  cases tokens with
  | nil => exact ⟨[], none, rfl, rfl, rfl⟩
  | cons token rest =>
    rw [takeBoost]
    split
    · rename_i number value
      exact ⟨[token], some number, rfl, congrArg (fun value => [value]) value, rfl⟩
    · exact ⟨[], none, rfl, rfl, rfl⟩

theorem spelled_takeSuffix (tokens : Tokens) :
    ∃ taken number, tokens = taken ++ (takeSuffix tokens).2.2 ∧
      taken.map Placed.value ∈ wordSuffixes (takeSuffix tokens).1 number ∧
      (takeSuffix tokens).2.1 = number.map Boost.ofDecimal := by
  rcases spelled_takeSlop tokens with ⟨first, splitSlop, slops⟩
  rcases spelled_takeBoost (takeSlop tokens).2 with ⟨second, number, splitBoost, boosts, boost⟩
  simp only [takeSuffix]
  split
  · -- a slop that is taken behind the boost leaves none in front of it
    rename_i late
    simp only [Bool.and_eq_true, Option.isNone_iff_eq_none] at late
    rcases spelled_takeSlop (takeBoost (takeSlop tokens).2).2 with ⟨third, splitLate, slopsLate⟩
    rw [late.1] at slops
    obtain rfl : first = [] := List.map_eq_nil_iff.1 slops
    refine ⟨second ++ third, number, ?_, ?_, boost⟩
    · rw [List.append_assoc, ← splitLate, ← splitBoost]
      exact splitSlop
    · rw [List.map_append, boosts, slopsLate]
      simp [wordSuffixes]
  · refine ⟨first ++ second, number, ?_, ?_, boost⟩
    · rw [List.append_assoc, ← splitBoost]
      exact splitSlop
    · apply mem_wordSuffixes
      rw [List.map_append, boosts, slops]

theorem spelled_takeConjunction (tokens : Tokens) :
    ∃ joint, tokens = joint ++ (takeConjunction tokens).2 ∧
      joint.map Placed.value ∈ (takeConjunction tokens).1.spellings := by
  cases tokens with
  | nil => exact ⟨[], rfl, by decide⟩
  | cons token rest =>
    rw [takeConjunction]
    split
    · rename_i value
      exact ⟨[token], rfl, by simp [value, Conjunction.spellings]⟩
    · rename_i value
      exact ⟨[token], rfl, by simp [value, Conjunction.spellings]⟩
    · exact ⟨[], rfl, by simp [Conjunction.spellings]⟩

theorem spelled_takeModifier (tokens : Tokens) :
    ∃ sign, tokens = sign ++ (takeModifier tokens).2 ∧
      sign.map Placed.value ∈ (takeModifier tokens).1.spellings := by
  cases tokens with
  | nil => exact ⟨[], rfl, by decide⟩
  | cons token rest =>
    rw [takeModifier]
    split
    · rename_i value
      exact ⟨[token], rfl, by simp [value, Modifier.spellings]⟩
    · rename_i value
      exact ⟨[token], rfl, by simp [value, Modifier.spellings]⟩
    · rename_i value
      exact ⟨[token], rfl, by simp [value, Modifier.spellings]⟩
    · exact ⟨[], rfl, by simp [Modifier.spellings]⟩

theorem names_of_takeField? {tokens rest : Tokens} {name : Text}
    (taken : takeField? tokens = some (.ok name, rest)) :
    ∃ token colon, tokens = token :: colon :: rest ∧ Names token name ∧ colon.value = .colon := by
  unfold takeField? at taken
  split at taken
  · rename_i token colon following
    split at taken
    · rename_i separates
      split at taken
      · rename_i word value
        rcases Prod.mk.inj (Option.some.inj taken) with ⟨read, rfl⟩
        exact ⟨token, colon, rfl, Or.inl ⟨word, value, read⟩, separates⟩
      · rename_i value
        rcases Prod.mk.inj (Option.some.inj taken) with ⟨read, rfl⟩
        exact ⟨token, colon, rfl, Or.inr ⟨value, (Except.ok.inj read).symm⟩, separates⟩
      · cases taken
    · cases taken
  · cases taken

theorem spelled_readOperand (budget stop : Nat) (field : Text) (tokens : Tokens) :
    (readOperand stop field tokens).Spelled budget field .body tokens := by
  intro query rest read
  cases tokens with
  | nil => cases read
  | cons token following =>
    rw [readOperand] at read
    split at read
    · rename_i contents value
      rcases exists_of_map_eq_ok read with ⟨text, unescaped, result⟩
      rcases spelled_takeSlop following with ⟨first, splitSlop, slops⟩
      rcases spelled_takeBoost (takeSlop following).2 with
        ⟨second, number, splitBoost, boosts, boost⟩
      simp only [withBoost, boost] at result
      rcases Prod.mk.inj result with ⟨rfl, rfl⟩
      have suffixes : (first ++ second).map Placed.value =
          slopTokens (takeSlop following).1 ++ boostTokens number := by
        rw [List.map_append, slops, boosts]
      refine ⟨token :: (first ++ second), ?_, .quoted value unescaped suffixes⟩
      rw [List.cons_append, List.append_assoc, ← splitBoost, ← splitSlop]
    · rename_i lower upper lowerInclusive upperInclusive value
      rcases exists_of_map_eq_ok read with ⟨condition, unescaped, result⟩
      rcases spelled_takeBoost following with ⟨suffix, number, split, boosts, boost⟩
      simp only [withBoost, boost] at result
      rcases Prod.mk.inj result with ⟨rfl, rfl⟩
      exact ⟨token :: suffix, congrArg (token :: ·) split, .range value unescaped boosts⟩
    · rcases spelled_takeSuffix following with ⟨suffix, number, split, suffixes, boost⟩
      dsimp only at read
      split at read
      · cases read
      · rename_i outcome found
        rcases exists_of_map_eq_ok read with ⟨condition, rfl, result⟩
        rw [boost] at result
        rcases Prod.mk.inj result with ⟨rfl, rfl⟩
        exact ⟨token :: suffix, congrArg (token :: ·) split, .word found suffixes⟩

section Readers

variable {budget : Nat} {field : Text} {reader : Reader Query}

/-- One step of reading the clauses behind the first one. -/
theorem readParts_eq_of_continues (reader : Reader Query) {tokens : Tokens}
    (more : continues tokens = true) :
    readParts reader tokens =
      match reader.run (takeModifier (takeConjunction tokens).2).2 with
      | .error fault => .error fault
      | .ok (query, rest) => (readParts reader rest).map fun (others, behind) =>
          (⟨(takeConjunction tokens).1, (takeModifier (takeConjunction tokens).2).1, query⟩ ::
            others, behind) := by
  rw [readParts.eq_def, if_pos more]
  dsimp only
  split
  · rename_i failed
    rw [failed]
  · rename_i read
    rw [read]

/-- The clauses behind the first one, by induction on the tokens that are left. -/
theorem spelled_readParts
    (sound : ∀ tokens, (reader.run tokens).Spelled budget field .clause tokens)
    (tokens : Tokens) : (readParts reader tokens).Spelled budget field .parts tokens := by
  intro parts rest read
  fun_induction readParts reader tokens generalizing parts rest with
  | case1 => cases read
  | case2 tokens _ conjunction modifier query behind =>
    rename_i found ih
    rcases spelled_takeConjunction tokens with ⟨joint, splitJoint, joins⟩
    rcases spelled_takeModifier conjunction.2 with ⟨sign, splitSign, modifies⟩
    rcases exists_of_map_eq_ok read with ⟨⟨others, after⟩, inner, result⟩
    rcases Prod.mk.inj result with ⟨rfl, rfl⟩
    rcases sound _ found with ⟨taken, splitClause, clause⟩
    rcases ih inner with ⟨following, splitOthers, spelled⟩
    refine ⟨joint ++ (sign ++ (taken ++ following)), ?_, .part joins modifies clause spelled⟩
    calc tokens = joint ++ conjunction.2 := splitJoint
      _ = joint ++ (sign ++ (taken ++ (following ++ after))) := by
          rw [splitSign, splitClause, splitOthers]
      _ = joint ++ (sign ++ (taken ++ following)) ++ after := by simp
  | case3 =>
    rcases Prod.mk.inj (Except.ok.inj read) with ⟨rfl, rfl⟩
    exact ⟨[], rfl, .done⟩

theorem spelled_readSequence
    (sound : ∀ tokens, (reader.run tokens).Spelled budget field .clause tokens)
    (tokens : Tokens) : (readSequence reader tokens).Spelled budget field .sequence tokens := by
  intro query rest read
  rcases spelled_takeModifier tokens with ⟨sign, splitSign, modifies⟩
  rw [readSequence] at read
  split at read
  · cases read
  · rename_i first behind found
    rcases exists_of_map_eq_ok read with ⟨⟨others, after⟩, inner, result⟩
    rcases Prod.mk.inj result with ⟨rfl, rfl⟩
    rcases sound _ found with ⟨taken, splitClause, clause⟩
    rcases spelled_readParts sound behind inner with ⟨following, splitOthers, spelled⟩
    refine ⟨sign ++ (taken ++ following), ?_, .sequence modifies clause spelled⟩
    calc tokens = sign ++ (takeModifier tokens).2 := splitSign
      _ = sign ++ (taken ++ (following ++ after)) := by rw [splitClause, splitOthers]
      _ = sign ++ (taken ++ following) ++ after := by simp

end Readers

/-- The reader of what stands in parentheses, if the budget allows any. -/
def innerReader? (stop : Nat) : (budget : Nat) → Option (Text → Reader Query)
  | 0 => none
  | budget + 1 => some (queryReader stop budget)

theorem queryReader_eq (stop budget : Nat) (field : Text) :
    queryReader stop budget field = sequence (clause stop (innerReader? stop budget) field) := by
  cases budget <;> rfl

section

variable {stop budget : Nat}

theorem spelled_readBody
    (sound : ∀ smaller, budget = smaller + 1 → ∀ field tokens,
      ((queryReader stop smaller field).run tokens).Spelled smaller field .sequence tokens)
    (field : Text) (tokens : Tokens) :
    (readBody stop (innerReader? stop budget) field tokens).Spelled budget field .body tokens := by
  intro query rest read
  cases tokens with
  | nil => exact spelled_readOperand budget stop field [] read
  | cons opening following =>
    rw [readBody.eq_def] at read
    dsimp only at read
    split at read
    · rename_i opens
      cases budget with
      | zero => cases read
      | succ smaller =>
        simp only [innerReader?] at read
        split at read
        · cases read
        · rename_i content behind found
          rcases sound smaller rfl field following found with ⟨taken, splitContent, spelled⟩
          cases behind with
          | nil => cases read
          | cons closing behind =>
            dsimp only at read
            split at read
            · rename_i closes
              rcases spelled_takeBoost behind with ⟨suffix, number, splitSuffix, boosts, boost⟩
              simp only [withBoost, boost] at read
              rcases Prod.mk.inj (Except.ok.inj read) with ⟨rfl, rfl⟩
              refine ⟨opening :: (taken ++ closing :: suffix), ?_,
                .parentheses opens spelled closes boosts⟩
              rw [splitContent, List.cons_append, List.append_assoc, List.cons_append,
                ← splitSuffix]
            · cases read
    · exact spelled_readOperand budget stop field (opening :: following) read

theorem spelled_readClause
    (sound : ∀ field tokens,
      (readBody stop (innerReader? stop budget) field tokens).Spelled budget field .body tokens)
    (field : Text) (tokens : Tokens) :
    (readClause stop (innerReader? stop budget) field tokens).Spelled budget field .clause
      tokens := by
  intro query rest read
  rw [readClause] at read
  split at read
  · rcases sound field tokens read with ⟨taken, split, body⟩
    exact ⟨taken, split, .unnamed body⟩
  · cases read
  · rename_i name following found
    rcases names_of_takeField? found with ⟨token, colon, rfl, names, separates⟩
    rcases sound name following read with ⟨taken, rfl, body⟩
    exact ⟨token :: colon :: taken, rfl, .named names separates body⟩

end

/-- What holds within a budget if it does inside its parentheses holds within every budget. -/
theorem budget_induction {motive : Nat → Prop}
    (step : ∀ budget, (∀ smaller, budget = smaller + 1 → motive smaller) → motive budget)
    (budget : Nat) : motive budget := by
  induction budget with
  | zero => exact step 0 fun smaller impossible => absurd impossible.symm (Nat.succ_ne_zero smaller)
  | succ budget ih =>
    refine step (budget + 1) fun smaller same => ?_
    obtain rfl : budget = smaller := Nat.succ.inj same
    exact ih

/-- What is read within a budget is spelled within it, by induction on the budget. -/
theorem spelled_queryReader (stop budget : Nat) (field : Text) (tokens : Tokens) :
    ((queryReader stop budget field).run tokens).Spelled budget field .sequence tokens := by
  induction budget using budget_induction generalizing field tokens with
  | step budget sound =>
    rw [queryReader_eq]
    exact spelled_readSequence (spelled_readClause (spelled_readBody sound) field) tokens

/-! ## What readers leave behind -/

section

variable (stop budget : Nat) (field : Text)

theorem spelled_clause (tokens : Tokens) :
    ((clause stop (innerReader? stop budget) field).run tokens).Spelled budget field .clause
      tokens :=
  spelled_readClause (spelled_readBody fun smaller _ => spelled_queryReader stop smaller) field
    tokens

theorem suffix_clause {tokens rest : Tokens} {query : Query}
    (read : (clause stop (innerReader? stop budget) field).run tokens = .ok (query, rest)) :
    rest <:+ tokens := by
  rcases spelled_clause stop budget field tokens read with ⟨taken, split, _⟩
  exact ⟨taken, split.symm⟩

theorem suffix_queryReader {tokens rest : Tokens} {query : Query}
    (read : (queryReader stop budget field).run tokens = .ok (query, rest)) :
    rest <:+ tokens := by
  rcases spelled_queryReader stop budget field tokens read with ⟨taken, split, _⟩
  exact ⟨taken, split.symm⟩

end

theorem suffix_takeConjunction (tokens : Tokens) : (takeConjunction tokens).2 <:+ tokens := by
  rcases spelled_takeConjunction tokens with ⟨joint, split, _⟩
  exact ⟨joint, split.symm⟩

theorem suffix_takeModifier (tokens : Tokens) : (takeModifier tokens).2 <:+ tokens := by
  rcases spelled_takeModifier tokens with ⟨sign, split, _⟩
  exact ⟨sign, split.symm⟩

end AlarmQuery
