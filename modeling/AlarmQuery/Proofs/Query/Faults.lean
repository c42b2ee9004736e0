import AlarmQuery.Proofs.Query.Spelling
import AlarmQuery.Proofs.Token.Faults

/-!
# Where reading a query fails

`Blames stop tokens fault` lists what tokens can be turned down for: a piece of one of them whose
escapes are wrong, tokens from some place on that do not fit what stands before them, or a
parenthesis that opens inside too many others.  Every reader blames the tokens that it is given, and
they stand in the text, which tells where in it each kind of fault is reported.
-/

namespace AlarmQuery

/-! ## Pieces of tokens -/

/-- Where the text of a bound begins, behind its opening quote if it has one. -/
def Bound.inside (bound : Bound) : Nat :=
  if bound.quoted then bound.position + 1 else bound.position

/-- The pieces of a token whose escapes are read, each with its place. -/
inductive Token.HasPiece (position : Nat) : Token → Nat → Text → Prop
  | word {token word piece} (isWord : token.word? = some word) (part : piece <+: word) :
      HasPiece position token position piece
  | quoted {contents} : HasPiece position (.quoted contents) (position + 1) contents
  | lower {lower upper lowerInclusive upperInclusive} :
      HasPiece position (.range lower upper lowerInclusive upperInclusive) lower.inside lower.text
  | upper {lower upper lowerInclusive upperInclusive} :
      HasPiece position (.range lower upper lowerInclusive upperInclusive) upper.inside upper.text

section

variable {whole piece : Text} {place : Nat}

theorem StandsAt.bound {bound : Bound} (stands : StandsAt whole bound.position bound.source) :
    StandsAt whole bound.inside bound.text := by
  rw [Bound.source] at stands
  rw [Bound.inside]
  split at stands
  · rename_i quoted
    rw [if_pos quoted]
    exact stands.left.tail
  · rename_i bare
    rwa [if_neg bare]

/-- The pieces of a token stand where it has them. -/
theorem Sourced.stands_piece {token : Placed Token} (sourced : Sourced whole token)
    (has : token.value.HasPiece token.position place piece) : StandsAt whole place piece := by
  rcases token with ⟨token, position⟩
  rcases sourced with ⟨source, written, stands⟩
  dsimp only at has written stands
  cases written with
  | word =>
    -- which token a word is depends on its characters, so the pieces are found before it is known
    generalize same : Token.ofWord source = token at has
    cases has with
    | word isWord part =>
      obtain rfl := Token.eq_of_word?_ofWord (same ▸ isWord)
      rcases part with ⟨behind, rfl⟩
      exact stands.left
    | quoted => exact absurd same (Token.ofWord_ne (by simp) nofun nofun nofun)
    | lower => exact absurd same (Token.ofWord_ne (by simp) nofun nofun nofun)
    | upper => exact absurd same (Token.ofWord_ne (by simp) nofun nofun nofun)
  | sign means =>
    simp only [punctuationTokens, List.mem_cons, Prod.mk.injEq, List.not_mem_nil,
      or_false] at means
    rcases means with ⟨_, rfl⟩ | ⟨_, rfl⟩ | ⟨_, rfl⟩ | ⟨_, rfl⟩ | ⟨_, rfl⟩ | ⟨_, rfl⟩
    all_goals
      cases has with
      | word isWord => cases isWord
  | bareOperator | boost | slop | regexp =>
    cases has with
    | word isWord => cases isWord
  | quoted =>
    cases has with
    | word isWord => cases isWord
    | quoted => exact stands.left.tail
  | range spaces lowerPlace upperPlace =>
    cases has with
    | word isWord => cases isWord
    | lower =>
      refine StandsAt.bound ?_
      convert stands.left.left.left.left.left.left.right using 1
      simp only [List.length_cons]
      omega
    | upper =>
      refine StandsAt.bound ?_
      convert stands.left.left.right using 1
      simp only [List.length_append, List.length_cons, List.length_nil]
      omega

end

/-! ## Faults of a condition -/

section

variable {fault : Placed Fault}

theorem fault_of_readBoundText {bound : Bound} (refused : readBoundText bound = .error fault) :
    unescapeAt bound.inside bound.text = .error fault := by
  rw [readBoundText] at refused
  rw [Bound.inside]
  split at refused
  · rename_i quoted
    rw [if_pos quoted]
    exact eq_error_of_map_eq_error refused
  · rename_i bare
    rw [if_neg bare]
    split at refused
    · cases refused
    · exact eq_error_of_map_eq_error refused

theorem fault_of_rangeCondition {lower upper : Bound} {lowerInclusive upperInclusive : Bool}
    (refused : rangeCondition lower upper lowerInclusive upperInclusive = .error fault) :
    unescapeAt lower.inside lower.text = .error fault ∨
      unescapeAt upper.inside upper.text = .error fault := by
  rw [rangeCondition] at refused
  cases lowerRead : readBoundText lower with
  | error =>
    rw [lowerRead] at refused
    cases refused
    exact Or.inl (fault_of_readBoundText lowerRead)
  | ok lowerText =>
    cases upperRead : readBoundText upper with
    | error =>
      rw [lowerRead, upperRead] at refused
      cases refused
      exact Or.inr (fault_of_readBoundText upperRead)
    | ok upperText =>
      rw [lowerRead, upperRead] at refused
      cases refused

theorem fault_of_wordCondition? {field : Text} {slop : Option Text} {token : Placed Token}
    (refused : wordCondition? field slop token = some (.error fault)) :
    ∃ piece, token.value.HasPiece token.position token.position piece ∧
      unescapeAt token.position piece = .error fault := by
  rcases token with ⟨token, position⟩
  cases token with
  | term word =>
    have failed := eq_error_of_map_eq_error (Option.some.inj refused)
    exact ⟨word, .word rfl (List.prefix_refl word), failed⟩
  | starred word =>
    have failed := eq_error_of_map_eq_error (Option.some.inj refused)
    exact ⟨word.dropLast, .word rfl (List.dropLast_prefix word), failed⟩
  | _ => cases refused

theorem fault_of_takeField? {tokens rest : Tokens}
    (taken : takeField? tokens = some (.error fault, rest)) :
    ∃ token ∈ tokens, ∃ word, token.value = .term word ∧
      unescapeAt token.position word = .error fault := by
  unfold takeField? at taken
  split at taken
  · rename_i token colon following
    split at taken
    · split at taken
      · rename_i word value
        have refused := congrArg Prod.fst (Option.some.inj taken)
        exact ⟨token, List.mem_cons_self, word, value, refused⟩
      · cases taken
      · cases taken
    · cases taken
  · cases taken

end

/-! ## What readers blame -/

/-- What tokens can be turned down for.  The tokens that do not fit are all that is left from some
place on, and without any it is the end of the query that does not fit. -/
inductive Blames (stop : Nat) (tokens : Tokens) : Placed Fault → Prop
  | escape {token place piece fault} (member : token ∈ tokens)
      (has : token.value.HasPiece token.position place piece)
      (refused : unescapeAt place piece = .error fault) : Blames stop tokens fault
  | unexpected {rest expected} (left : rest <:+ tokens) :
      Blames stop tokens (unexpected stop expected rest)
  | nested {token} (member : token ∈ tokens) :
      Blames stop tokens ⟨.nestedTooDeeply, token.position⟩

/-- A reading that fails blames its tokens. -/
def Reading.Blamed {α : Type} (stop : Nat) (tokens : Tokens) (reading : Reading α) : Prop :=
  ∀ {fault}, reading = .error fault → Blames stop tokens fault

section

variable {stop : Nat}

theorem Blames.mono {last all : Tokens} {fault : Placed Fault} (blames : Blames stop last fault)
    (part : last <:+ all) : Blames stop all fault := by
  cases blames with
  | escape member has refused => exact .escape (part.mem member) has refused
  | unexpected left => exact .unexpected (left.trans part)
  | nested member => exact .nested (part.mem member)

theorem blamed_readOperand (field : Text) (tokens : Tokens) :
    (readOperand stop field tokens).Blamed stop tokens := by
  intro fault refused
  cases tokens with
  | nil =>
    rw [← Except.error.inj refused]
    exact .unexpected (List.suffix_refl [])
  | cons token rest =>
    have first : token ∈ token :: rest := List.mem_cons_self
    rw [readOperand] at refused
    split at refused
    · rename_i contents value
      refine .escape first ?_ (eq_error_of_map_eq_error refused)
      rw [value]
      exact .quoted
    · rename_i lower upper lowerInclusive upperInclusive value
      rcases fault_of_rangeCondition (eq_error_of_map_eq_error refused) with failed | failed
      · exact .escape first (value ▸ .lower) failed
      · exact .escape first (value ▸ .upper) failed
    · dsimp only at refused
      split at refused
      · rw [← Except.error.inj refused]
        exact .unexpected (List.suffix_refl _)
      · rename_i condition found
        rw [eq_error_of_map_eq_error refused] at found
        rcases fault_of_wordCondition? found with ⟨piece, has, failed⟩
        exact .escape first has failed

end

section Readers

variable {stop budget : Nat} {reader : Reader Query}

/-- The clauses behind the first one, by induction on the tokens that are left. -/
theorem blamed_readParts
    (left : ∀ {tokens rest query}, reader.run tokens = .ok (query, rest) → rest <:+ tokens)
    (blamed : ∀ tokens, (reader.run tokens).Blamed stop tokens)
    (tokens : Tokens) : (readParts reader tokens).Blamed stop tokens := by
  intro fault refused
  fun_induction readParts reader tokens with
  | case1 tokens _ conjunction modifier found failed =>
    have before := (suffix_takeModifier conjunction.2).trans (suffix_takeConjunction tokens)
    exact Except.error.inj refused ▸ (blamed _ failed).mono before
  | case2 tokens _ conjunction modifier query rest read later =>
    have before := (suffix_takeModifier conjunction.2).trans (suffix_takeConjunction tokens)
    have behind := (left read).trans before
    exact (later (eq_error_of_map_eq_error refused)).mono behind
  | case3 => cases refused

theorem blamed_readSequence
    (left : ∀ {tokens rest query}, reader.run tokens = .ok (query, rest) → rest <:+ tokens)
    (blamed : ∀ tokens, (reader.run tokens).Blamed stop tokens)
    (tokens : Tokens) : (readSequence reader tokens).Blamed stop tokens := by
  intro fault refused
  have before := suffix_takeModifier tokens
  rw [readSequence] at refused
  split at refused
  · rename_i found failed
    exact (blamed _ (failed.trans refused)).mono before
  · rename_i query rest read
    have behind := (left read).trans before
    exact (blamed_readParts left blamed rest (eq_error_of_map_eq_error refused)).mono behind

theorem blamed_readBody
    (blamed : ∀ smaller, budget = smaller + 1 → ∀ field tokens,
      ((queryReader stop smaller field).run tokens).Blamed stop tokens)
    (field : Text) (tokens : Tokens) :
    (readBody stop (innerReader? stop budget) field tokens).Blamed stop tokens := by
  intro fault refused
  cases tokens with
  | nil => exact blamed_readOperand field [] refused
  | cons opening following =>
    rw [readBody.eq_def] at refused
    dsimp only at refused
    split at refused
    · cases budget with
      | zero =>
        rw [← Except.error.inj refused]
        exact .nested List.mem_cons_self
      | succ smaller =>
        have content : following <:+ opening :: following := List.suffix_cons opening following
        simp only [innerReader?] at refused
        split at refused
        · rename_i found failed
          exact (blamed smaller rfl field following (failed.trans refused)).mono content
        · rename_i query behind read
          -- whatever stands where the parenthesis should close is left of the same tokens
          have left := (suffix_queryReader stop smaller field read).trans content
          split at refused
          · rw [← Except.error.inj refused]
            exact .unexpected left
          · split at refused
            · cases refused
            · rw [← Except.error.inj refused]
              exact .unexpected left
    · exact blamed_readOperand field (opening :: following) refused

theorem blamed_readClause
    (blamed : ∀ field tokens,
      (readBody stop (innerReader? stop budget) field tokens).Blamed stop tokens)
    (field : Text) (tokens : Tokens) :
    (readClause stop (innerReader? stop budget) field tokens).Blamed stop tokens := by
  intro fault refused
  rw [readClause] at refused
  split at refused
  · exact blamed field tokens refused
  · rename_i found rest taken
    rw [Except.error.inj refused] at taken
    rcases fault_of_takeField? taken with ⟨token, member, word, value, failed⟩
    exact .escape member (value ▸ .word rfl (List.prefix_refl word)) failed
  · rename_i name rest taken
    rcases names_of_takeField? taken with ⟨token, colon, rfl, _, _⟩
    exact (blamed name rest refused).mono ⟨[token, colon], rfl⟩

/-- Within any budget, by induction on it. -/
theorem blamed_queryReader (stop budget : Nat) (field : Text) (tokens : Tokens) :
    ((queryReader stop budget field).run tokens).Blamed stop tokens := by
  induction budget using budget_induction generalizing field tokens with
  | step budget blamed =>
    rw [queryReader_eq]
    exact blamed_readSequence (suffix_clause stop budget field)
      (blamed_readClause (blamed_readBody blamed) field) tokens

end Readers

theorem blames_of_ofTokens {scanned : Scanned} {field : Text} {fault : Placed Fault}
    (refused : Query.ofTokens scanned field = .error fault) :
    Blames scanned.stop scanned.tokens fault := by
  rw [Query.ofTokens] at refused
  split at refused
  · rename_i found failed
    rw [← Except.error.inj refused]
    exact blamed_queryReader scanned.stop maxNesting field scanned.tokens failed
  · cases refused
  · rename_i query rest _ read
    rw [← Except.error.inj refused]
    exact .unexpected (suffix_queryReader scanned.stop maxNesting field read)

/-! ## Messages -/

/-- The message of an escape and of no other fault begins so. -/
theorem EscapeFault.head?_message (escape : EscapeFault) :
    escape.message.head? ∈ [some 'T', some 'I'] := by
  cases escape with
  | trailing => decide
  | truncated => decide
  | notCharacter code => exact List.mem_cons_of_mem _ List.mem_cons_self

theorem Fault.head?_message (fault : Fault) :
    (∃ escape, fault = .escape escape) ∨ fault.message.head? ∈ [some 'L', some 'E', some 'Q'] := by
  cases fault with
  | escape escape => exact Or.inl ⟨escape, rfl⟩
  | missingTo | unexpectedToken => exact Or.inr (List.mem_cons_of_mem _ List.mem_cons_self)
  | nestedTooDeeply => exact Or.inr (by decide)
  | _ => exact Or.inr List.mem_cons_self

theorem exists_escape_of_message {value : Fault} {escape : EscapeFault}
    (same : value.message = escape.message) : ∃ other, value = .escape other := by
  rcases value.head?_message with found | first
  · exact found
  · have other := escape.head?_message
    rw [← same] at other
    simp only [List.mem_cons, List.not_mem_nil, or_false] at first other
    grind

/-! ## Whole texts -/

section

variable {text : Text} {scanned : Scanned} {fault : Placed Fault}

/-- The tokens of a text are blamed where they stand. -/
theorem inside_of_blames (scans : scan text = .ok scanned)
    (blames : Blames scanned.stop scanned.tokens fault) : IsInside text fault := by
  have sourced := sourced_of_scan scans
  have there {token : Placed Token} (member : token ∈ scanned.tokens) :
      token.position ≤ text.length := by
    rcases sourced token member with ⟨source, _, stands⟩
    exact Nat.le_trans (Nat.le_add_right _ _) stands.length_le
  cases blames with
  | escape member has refused =>
    exact inside_of_unescapeAt ((sourced _ member).stands_piece has) refused
  | @unexpected rest expected left =>
    refine ⟨?_, fun _ impossible => ?_⟩
    · cases rest with
      | nil => exact Nat.le_of_eq (stop_of_scan scans)
      | cons token rest => exact there (left.mem List.mem_cons_self)
    · cases rest <;> cases impossible
  | nested member => exact ⟨there member, fun _ impossible => Fault.noConfusion impossible⟩

theorem token_of_blames (blames : Blames scanned.stop scanned.tokens fault)
    {found : Option Token} {expected : Expectation}
    (value : fault.value = .unexpectedToken found expected) :
    (found = none ∧ fault.position = scanned.stop) ∨
      ∃ token, found = some token ∧ ⟨token, fault.position⟩ ∈ scanned.tokens := by
  cases blames with
  | escape _ _ refused =>
    rcases fault_of_unescapeAt refused with ⟨inner, _, rfl⟩
    cases value
  | @unexpected rest _ left =>
    cases rest with
    | nil =>
      cases value
      exact Or.inl ⟨rfl, rfl⟩
    | cons token rest =>
      cases value
      exact Or.inr ⟨token.value, rfl, left.mem List.mem_cons_self⟩
  | nested => cases value

/-- A query is turned down at a place inside it.  A message about an escape is placed at a
backslash, and a token that does not fit at the place where it stands, which is the end of the
query if there is no token. -/
theorem Query.fault_of_parse {field : Text} (refused : Query.parse text field = .error fault) :
    fault.position ≤ text.length ∧
      (∀ escape : EscapeFault, fault.value.message = escape.message →
        fault.position < text.length ∧ text[fault.position]? = some '\\') ∧
      ∀ found expected, fault.value = .unexpectedToken found expected →
        (found = none ∧ fault.position = text.length) ∨
          ∃ scanned token, scan text = .ok scanned ∧ found = some token ∧
            ⟨token, fault.position⟩ ∈ scanned.tokens ∧ Sourced text ⟨token, fault.position⟩ := by
  rw [Query.parse] at refused
  have backslash (inside : IsInside text fault) (escape : EscapeFault)
      (same : fault.value.message = escape.message) :
      fault.position < text.length ∧ text[fault.position]? = some '\\' := by
    rcases exists_escape_of_message same with ⟨other, value⟩
    have there := inside.backslash other value
    rcases List.getElem?_eq_some_iff.1 there with ⟨shorter, _⟩
    exact ⟨shorter, there⟩
  split at refused
  · rename_i found failed
    have lexical : IsLexical text fault := Except.error.inj refused ▸ lexical_of_scan failed
    refine ⟨lexical.position_le, backslash lexical.toIsInside, fun found expected value => ?_⟩
    exact absurd value (lexical.noToken found expected)
  · rename_i scanned scans
    have blames := blames_of_ofTokens refused
    have inside := inside_of_blames scans blames
    refine ⟨inside.position_le, backslash inside, fun found expected value => ?_⟩
    rcases token_of_blames blames value with ⟨rfl, place⟩ | ⟨token, rfl, member⟩
    · exact Or.inl ⟨rfl, place.trans (stop_of_scan scans)⟩
    · exact Or.inr ⟨scanned, token, scans, rfl, member, sourced_of_scan scans _ member⟩

/-- A wrong escape in the quoted bound of a range, in parentheses and behind a character that is
not plain. -/
theorem Query.fault_of_parse_bound :
    Query.parse "(é:[\"\\u12\" TO b])".toList ['d'] = .error ⟨.escape .truncated, 5⟩ ∧
      "(é:[\"\\u12\" TO b])".toList[5]? = some '\\' := by
  have tested : ((Query.parse "(é:[\"\\u12\" TO b])".toList ['d']).map fun _ => ()) =
      .error ⟨.escape .truncated, 5⟩ := by
    decide +kernel
  have refused := eq_error_of_map_eq_error tested
  exact ⟨refused, ((Query.fault_of_parse refused).2.1 .truncated rfl).2⟩

end

end AlarmQuery
