import AlarmQuery.Clause.ToQuery
import AlarmQuery.Proofs.Token.Escaped
import AlarmQuery.Proofs.Token.Parts
import AlarmQuery.Proofs.Token.Written
import Mathlib.Data.List.TakeWhile

/-!
# The tokens of written clauses

Every clause that names a field can be scanned, whatever its texts are.  `ClauseTokens` says which
tokens it gives: a sign, the words of the field, a colon, and the words of the term or one range.
With stray spaces in its texts a clause has more words than it should, without them it has one on
each side of the colon, which is `ReadableTokens`.
-/

namespace AlarmQuery

/-- A word that has no stray space. -/
def Token.IsWord (token : Token) : Prop :=
  ∃ letters : List Letter, letters ≠ [] ∧
    (∀ letter ∈ letters, letter.InWord ∧ letter.Faithful ∧ isStray letter.char = false) ∧
    token = .ofWord (written letters)

/-- Letters that begin with no stray space begin with a longest word, and a stray space ends it. -/
theorem exists_word {letters : List Letter}
    (begins : ∃ letter others, letters = letter :: others ∧ isStray letter.char = false) :
    ∃ word others, letters = word ++ others ∧ word ≠ [] ∧
      (∀ letter ∈ word, isStray letter.char = false) ∧
      ∀ letter following, others = letter :: following → isStray letter.char = true := by
  let unbroken := fun letter : Letter => !isStray letter.char
  refine ⟨letters.takeWhile unbroken, letters.dropWhile unbroken,
    List.takeWhile_append_dropWhile.symm, ?_, ?_, ?_⟩
  · rcases begins with ⟨letter, others, rfl, noStray⟩
    simp [unbroken, noStray]
  · intro letter member
    simpa [unbroken] using List.mem_takeWhile_imp member
  · intro letter following split
    have stops := List.head?_dropWhile_not unbroken letters
    rw [split] at stops
    simpa [unbroken] using stops

section

variable {literal : Bool} {text : Text}

theorem isWord_of_letters {word : List Letter} (nonempty : word ≠ [])
    (inside : ∀ letter ∈ word, letter ∈ escapeLetters literal text)
    (unbroken : ∀ letter ∈ word, isStray letter.char = false) :
    (Token.ofWord (written word)).IsWord := by
  refine ⟨word, nonempty, ?_, rfl⟩
  intro letter member
  exact ⟨inWord_of_not_isStray (inside letter member) (unbroken letter member),
    faithful_escapeLetters letter (inside letter member), unbroken letter member⟩

theorem endsWord_written {letters : List Letter} {rest : Text} (ends : EndsWord rest)
    (inside : ∀ letter ∈ letters, letter ∈ escapeLetters literal text)
    (stray : ∀ letter following, letters = letter :: following → isStray letter.char = true) :
    EndsWord (written letters ++ rest) := by
  cases letters with
  | nil => exact ends
  | cons letter letters =>
    have first := stray letter letters rfl
    rw [written_cons, text_of_isStray (inside letter List.mem_cons_self) first]
    exact endsWord_cons letter.char (Or.inl (isSpace_of_isStray first)) _

end

/-- Letters of an escaped text are scanned as the words between its stray spaces. -/
theorem scannedAs_words (literal : Bool) (text : Text) {letters : List Letter}
    (inside : ∀ letter ∈ letters, letter ∈ escapeLetters literal text) :
    ScannedAs (written letters) fun tokens => ∀ token ∈ tokens, token.value.IsWord := by
  intro position rest ends
  -- each round takes a stray space or a longest run of letters without one
  induction size : letters.length using Nat.strongRecOn generalizing letters position with
  | _ _ ih =>
    subst size
    cases letters with
    | nil => exact ⟨[], Scans.refl _, fun _ absent => absurd absent List.not_mem_nil⟩
    | cons letter letters =>
      cases stray : isStray letter.char with
      | true =>
        have later : ∀ other ∈ letters, other ∈ escapeLetters literal text :=
          fun other present => inside other (List.mem_cons_of_mem _ present)
        rcases ih letters.length (Nat.lt_succ_self _) later (position + 1) rfl with
          ⟨tokens, scans, words⟩
        have step := scans_space (isSpace_of_isStray stray) position (written letters ++ rest)
        refine ⟨tokens, ?_, words⟩
        have joined := step.trans scans
        rw [written_cons, text_of_isStray (inside letter List.mem_cons_self) stray]
        refine Scans.recount (by simpa using joined) ?_
        simp only [List.length_append, List.length_cons, List.length_nil]
        omega
      | false =>
        rcases exists_word ⟨letter, letters, rfl, stray⟩ with
          ⟨word, others, split, nonempty, unbroken, stops⟩
        rw [split] at inside ih ⊢
        have inWord : ∀ other ∈ word, other ∈ escapeLetters literal text :=
          fun other present => inside other (List.mem_append_left others present)
        have later : ∀ other ∈ others, other ∈ escapeLetters literal text :=
          fun other present => inside other (List.mem_append_right word present)
        have shorter : others.length < (word ++ others).length := by
          rw [List.length_append]
          exact Nat.lt_add_of_pos_left (List.length_pos_iff.2 nonempty)
        rcases ih others.length shorter later (position + (written word).length) rfl with
          ⟨tokens, scans, words⟩
        have step := scans_word nonempty
          (fun other present => inWord_of_not_isStray (inWord other present)
            (unbroken other present))
          (endsWord_written ends later stops) position
        refine ⟨⟨.ofWord (written word), position⟩ :: tokens, ?_, ?_⟩
        · have joined := step.trans scans
          rw [written_append]
          simpa [Nat.add_assoc] using joined
        · intro token present
          rcases List.mem_cons.1 present with rfl | present
          · exact isWord_of_letters nonempty inWord unbroken
          · exact words token present

/-! ## Signs -/

/-- The token of the operator in front of a clause. -/
def Negation.sign : Negation → Token
  | .is => .plus
  | .isNot => .minus

/-- The operator in front of a clause, when it is a term because a space follows it. -/
def Negation.bareSign : Negation → Token
  | .is => .bareOperator '+'
  | .isNot => .bareOperator '-'

/-- An operator with a word or a parenthesis behind it is a sign. -/
theorem scans_sign (negation : Negation) {c : Char} (noSpace : isSpace c = false)
    (position : Nat) (rest : Text) :
    Scans ⟨position, negation.occur.operator ++ c :: rest⟩ [⟨negation.sign, position⟩]
      ⟨position + 1, c :: rest⟩ := by
  cases negation with
  | is => exact scans_plus noSpace position rest
  | isNot => exact scans_minus noSpace position rest

/-- An operator with a space behind it takes the space with it. -/
theorem scans_bareSign (negation : Negation) {c : Char} (space : isSpace c = true)
    (position : Nat) (rest : Text) :
    Scans ⟨position, negation.occur.operator ++ c :: rest⟩ [⟨negation.bareSign, position⟩]
      ⟨position + 2, rest⟩ := by
  cases negation with
  | is =>
    apply scans_token (by decide)
    simp [readToken, readOperator, space, Negation.bareSign]
  | isNot =>
    apply scans_token (by decide)
    simp [readToken, readOperator, space, Negation.bareSign]

/-! ## Ranges -/

/-- The token of the content of a clause.  The bounds of a range have positions, which are given
here. -/
def Clause.operand (clause : Clause) (lower upper : Nat) : Token :=
  if clause.isRange then
    .range ⟨escape clause.literal clause.term, true, lower⟩
      ⟨escape clause.literal clause.upTo, true, upper⟩ true true
  else .ofWord (escape clause.literal clause.term)

theorem scans_range {clause : Clause} (range : clause.isRange = true) (position : Nat)
    (rest : Text) :
    ∃ lower upper, Scans ⟨position, clause.conditionText ++ rest⟩
      [⟨clause.operand lower upper, position⟩]
      ⟨position + clause.conditionText.length, rest⟩ := by
  have bound (text : Text) : IsBound ('"' :: (escape clause.literal text ++ ['"']))
      (escape clause.literal text) true := by
    rw [escape_eq_written]
    exact .quoted (inside_escapeLetters (by decide))
  have spelled : clause.conditionText =
      rangeText ('"' :: (escape clause.literal clause.term ++ ['"']))
        ('"' :: (escape clause.literal clause.upTo ++ ['"'])) true true := by
    simp [Clause.conditionText, range, rangeText]
  simp only [Clause.operand, if_pos range, spelled]
  exact scans_rangeText (bound clause.term) (bound clause.upTo) true true position rest

/-! ## Clauses -/

/-- The tokens of the content of a clause. -/
def ConditionTokens (clause : Clause) (tokens : List (Placed Token)) : Prop :=
  (clause.isRange = true ∧ ∃ lower upper position,
    tokens = [⟨clause.operand lower upper, position⟩]) ∨
  (clause.isRange = false ∧ (∀ word ∈ tokens, word.value.IsWord) ∧
    (clause.term = [] → tokens = []))

/-- The tokens of a clause that names a field. -/
def ClauseTokens (clause : Clause) (tokens : List (Placed Token)) : Prop :=
  ∃ sign name colon condition, tokens = sign :: (name ++ colon :: condition) ∧
    sign.value ∈ [clause.negation.sign, clause.negation.bareSign] ∧
    (∀ word ∈ name, word.value.IsWord) ∧ colon.value = .colon ∧
    ConditionTokens clause condition

/-- The tokens of a clause whose field and content are one token each. -/
def ReadableTokens (clause : Clause) (tokens : List (Placed Token)) : Prop :=
  ∃ sign name colon content lower upper, tokens = [sign, name, colon, content] ∧
    sign.value = clause.negation.sign ∧ name.value = .term (escape true clause.field) ∧
    colon.value = .colon ∧ content.value = clause.operand lower upper

/-- What a query needs of a clause to find its field and its content again. -/
structure Clause.Readable (clause : Clause) : Prop where
  named : clause.field ≠ []
  field : Unbroken clause.field
  /-- A range may have any bounds, since they are quoted. -/
  content : clause.isRange = false → clause.term ≠ [] ∧ Unbroken clause.term

theorem conditionText_of_term {clause : Clause} (term : clause.isRange = false) :
    clause.conditionText = escape clause.literal clause.term := by
  simp [Clause.conditionText, term]

/-- The content of a clause is scanned up to what ends a word. -/
theorem scannedAs_conditionText (clause : Clause) :
    ScannedAs clause.conditionText (ConditionTokens clause) := by
  intro position rest ends
  cases range : clause.isRange with
  | true =>
    rcases scans_range range position rest with ⟨lower, upper, scans⟩
    exact ⟨_, scans, Or.inl ⟨range, lower, upper, position, rfl⟩⟩
  | false =>
    rw [conditionText_of_term range]
    by_cases empty : clause.term = []
    · rw [empty, escape_eq_nil_iff.2 rfl]
      exact ⟨[], Scans.refl _, Or.inr ⟨range, by simp, fun _ => rfl⟩⟩
    · rw [escape_eq_written]
      rcases scannedAs_words clause.literal clause.term (fun _ member => member) position rest ends
        with ⟨tokens, scans, words⟩
      exact ⟨tokens, scans, Or.inr ⟨range, words, fun isEmpty => absurd isEmpty empty⟩⟩

/-- The sign of a clause and the words of its field are scanned up to the colon. -/
theorem scans_name (negation : Negation) {field : Text} (named : field ≠ []) (position : Nat)
    (rest : Text) :
    ∃ sign name, Scans ⟨position, negation.occur.operator ++ (escape true field ++ ':' :: rest)⟩
        (sign :: name) ⟨position + 1 + (escape true field).length, ':' :: rest⟩ ∧
      sign.value ∈ [negation.sign, negation.bareSign] ∧ ∀ word ∈ name, word.value.IsWord := by
  have ends : EndsWord (':' :: rest) := endsWord_cons ':' (by decide) rest
  rw [escape_eq_written]
  rcases List.exists_cons_of_ne_nil (escapeLetters_ne_nil true named) with
    ⟨letter, letters, spelled⟩
  have member : letter ∈ escapeLetters true field := by
    rw [spelled]
    exact List.mem_cons_self
  have others : ∀ other ∈ letters, other ∈ escapeLetters true field := by
    intro other inside
    rw [spelled]
    exact List.mem_cons_of_mem _ inside
  cases stray : isStray letter.char with
  | true =>
    rcases scannedAs_words true field others (position + 2) _ ends with ⟨tokens, scans, words⟩
    have sign := scans_bareSign negation (isSpace_of_isStray stray) position
      (written letters ++ ':' :: rest)
    refine ⟨⟨negation.bareSign, position⟩, tokens, ?_, by simp, words⟩
    have joined := sign.trans scans
    rw [spelled, written_cons, text_of_isStray member stray]
    refine Scans.recount (by simpa using joined) ?_
    simp only [List.length_append, List.length_cons, List.length_nil]
    omega
  | false =>
    rcases beginsWord_of_inWord (inWord_of_not_isStray member stray) with
      ⟨c, tail, firstText, begins⟩
    rcases scannedAs_words true field (fun _ inside => inside) (position + 1) _ ends with
      ⟨tokens, scans, words⟩
    refine ⟨⟨negation.sign, position⟩, tokens, ?_, by simp, words⟩
    rw [spelled, written_cons, firstText, List.cons_append, List.cons_append] at scans ⊢
    exact (scans_sign negation begins.isSpace_eq_false position _).trans scans

/-- A clause that names a field is scanned up to what ends a word. -/
theorem scannedAs_clause {clause : Clause} (named : clause.field ≠ []) :
    ScannedAs clause.text (ClauseTokens clause) := by
  intro position rest ends
  rcases scans_name clause.negation named position
    (clause.conditionText ++ rest) with ⟨sign, name, scansName, signs, words⟩
  rcases scannedAs_conditionText clause
    (position + 1 + (escape true clause.field).length + 1) rest ends with
      ⟨condition, scansCondition, contents⟩
  have joined := scansName.trans ((scans_colon _ _).trans scansCondition)
  refine ⟨_, ?_, sign, name, ⟨.colon, position + 1 + (escape true clause.field).length⟩,
    condition, rfl, signs, words, rfl, contents⟩
  have operator : clause.negation.occur.operator.length = 1 := by
    cases clause.negation <;> rfl
  refine Scans.recount (by simpa [Clause.text] using joined) ?_
  simp only [Clause.text, List.length_append, List.length_cons, operator]
  omega

/-- The content of a readable clause is one token. -/
theorem Clause.Readable.scans_content {clause : Clause} (readable : clause.Readable)
    (position : Nat) (rest : Text) (ends : EndsWord rest) :
    ∃ lower upper, Scans ⟨position, clause.conditionText ++ rest⟩
      [⟨clause.operand lower upper, position⟩]
      ⟨position + clause.conditionText.length, rest⟩ := by
  cases range : clause.isRange with
  | true => exact scans_range range position rest
  | false =>
    rcases readable.content range with ⟨nonempty, unbroken⟩
    refine ⟨0, 0, ?_⟩
    have word : clause.operand 0 0 = .ofWord (escape clause.literal clause.term) := by
      simp [Clause.operand, range]
    rw [word, conditionText_of_term range, ofWord_escape_eq]
    exact scans_of_firstToken (firstToken_escape clause.literal nonempty unbroken ends position)

/-- A readable clause is scanned as a sign, its field, a colon and its content. -/
theorem Clause.Readable.scannedAs {clause : Clause} (readable : clause.Readable) :
    ScannedAs clause.text (ReadableTokens clause) := by
  intro position rest ends
  have field := scans_field readable.named readable.field (position + 1)
    (clause.conditionText ++ rest)
  rcases readable.scans_content
    (position + 1 + (escape true clause.field).length + 1) rest ends with ⟨lower, upper, content⟩
  rcases exists_escape_eq_cons true readable.named readable.field with ⟨c, tail, spelled, noSpace⟩
  have sign : Scans
      ⟨position, clause.negation.occur.operator ++
        (escape true clause.field ++ ':' :: (clause.conditionText ++ rest))⟩
      [⟨clause.negation.sign, position⟩]
      ⟨position + 1,
        escape true clause.field ++ ':' :: (clause.conditionText ++ rest)⟩ := by
    rw [spelled, List.cons_append]
    exact scans_sign clause.negation noSpace position _
  have joined := sign.trans (field.trans content)
  refine ⟨_, ?_, ⟨clause.negation.sign, position⟩,
    ⟨.term (escape true clause.field), position + 1⟩,
    ⟨.colon, position + 1 + (escape true clause.field).length⟩,
    ⟨clause.operand lower upper, position + 1 + (escape true clause.field).length + 1⟩,
    lower, upper, rfl, rfl, rfl, rfl, rfl⟩
  have operator : clause.negation.occur.operator.length = 1 := by
    cases clause.negation <;> rfl
  refine Scans.recount (by simpa [Clause.text] using joined) ?_
  simp only [Clause.text, List.length_append, List.length_cons, operator]
  omega

end AlarmQuery
