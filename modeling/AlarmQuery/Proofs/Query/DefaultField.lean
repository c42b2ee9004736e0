import AlarmQuery.Clause.OfQuery
import AlarmQuery.Proofs.Query.Spelling
import AlarmQuery.Proofs.Token.Source
import Mathlib.Data.List.Forall2

/-!
# What depends on the default field

A text is read twice, with two default fields.  The readers are followed side by side: they take the
same tokens, fail alike, and what they return differs only where no field is named.  The one leaf
that looks at its field is a lone `*`.
-/

namespace AlarmQuery

/-! ## Queries that correspond -/

/-- A field is named in front of a colon. -/
def NamedIn (all : Tokens) (name : Text) : Prop :=
  ∃ token colon, [token, colon] <:+: all ∧ colon.value = .colon ∧ Names token name

/-- What a lone `*` stands for in a field. -/
def starCondition (field : Text) : Condition :=
  if field = ['*'] then .everything else .wildcard ['*']

/-- A condition that a lone `*` may stand for. -/
def Condition.IsStar : Condition → Prop
  | .everything => True
  | .wildcard pattern => pattern = ['*']
  | _ => False

/-- A field that is named, or the two default fields. -/
inductive FieldsCorrespond (all : Tokens) (first second : Text) : Text → Text → Prop
  | named {name} (named : NamedIn all name) : FieldsCorrespond all first second name name
  | default : FieldsCorrespond all first second first second

/-- The same condition on fields that correspond.  Only a lone `*` without a field in front may
stand for different conditions. -/
inductive Leaf.Corresponds (all : Tokens) (first second : Text) : Leaf → Leaf → Prop
  | named {name condition} (named : NamedIn all name) :
      Leaf.Corresponds all first second ⟨name, condition⟩ ⟨name, condition⟩
  | default {condition} (noStar : ¬ condition.IsStar) :
      Leaf.Corresponds all first second ⟨first, condition⟩ ⟨second, condition⟩
  | star : Leaf.Corresponds all first second ⟨first, starCondition first⟩
      ⟨second, starCondition second⟩

/-- Queries of the same shape whose leaves correspond. -/
inductive Query.Corresponds (all : Tokens) (first second : Text) : Query → Query → Prop
  | leaf {one two} (leaves : one.Corresponds all first second two) :
      Query.Corresponds all first second (.leaf one) (.leaf two)
  | group {one two : List (Occur × Query)} (occurs : one.map Prod.fst = two.map Prod.fst)
      (members : List.Forall₂
        (fun left right => Query.Corresponds all first second left.2 right.2) one two) :
      Query.Corresponds all first second (.group one) (.group two)
  | boosted {one two boost} (inner : Query.Corresponds all first second one two) :
      Query.Corresponds all first second (.boosted one boost) (.boosted two boost)

/-- Readings that fail alike or leave the same tokens behind related values. -/
def Reading.Corresponds {α : Type} (related : α → α → Prop) (one two : Reading α) : Prop :=
  (∃ fault, one = .error fault ∧ two = .error fault) ∨
    ∃ left right rest, one = .ok (left, rest) ∧ two = .ok (right, rest) ∧ related left right

theorem Reading.Corresponds.of_map {α β : Type} {related : β → β → Prop}
    {result : Except (Placed Fault) α} {one two : α → β × Tokens}
    (each : ∀ value, result = .ok value →
      related (one value).1 (two value).1 ∧ (one value).2 = (two value).2) :
    Reading.Corresponds related (result.map one) (result.map two) := by
  cases result with
  | error fault => exact Or.inl ⟨fault, rfl, rfl⟩
  | ok value =>
    rcases each value rfl with ⟨values, rests⟩
    refine Or.inr ⟨(one value).1, (two value).1, (one value).2, rfl, ?_, values⟩
    rw [rests]
    rfl

/-- What corresponds still does when both values are changed alike. -/
theorem Reading.Corresponds.map {α β : Type} {related : α → α → Prop} {changed : β → β → Prop}
    {one two : Reading α} {left right : α → β}
    (readings : Reading.Corresponds related one two)
    (each : ∀ {first second}, related first second → changed (left first) (right second)) :
    Reading.Corresponds changed (one.map fun (value, rest) => (left value, rest))
      (two.map fun (value, rest) => (right value, rest)) := by
  rcases readings with ⟨fault, rfl, rfl⟩ | ⟨first, second, rest, rfl, rfl, values⟩
  · exact Or.inl ⟨fault, rfl, rfl⟩
  · exact Or.inr ⟨left first, right second, rest, rfl, rfl, each values⟩

section

variable {all : Tokens} {first second : Text}

theorem Query.Corresponds.boostedBy {one two : Query}
    (queries : one.Corresponds all first second two) (boost : Option Boost) :
    (one.boostedBy boost).Corresponds all first second (two.boostedBy boost) := by
  cases boost with
  | none => exact queries
  | some boost => exact .boosted queries

/-! ## Operands -/

theorem wordCondition?_of_star {token : Placed Token} (star : token.value = .star) (field : Text)
    (slop : Option Text) :
    wordCondition? field slop token = some (.ok (starCondition field)) := by
  rw [wordCondition?, star, starCondition]

/-- A word other than a lone `*` means the same in every field. -/
theorem wordCondition?_congr {token : Placed Token} (noStar : token.value ≠ .star)
    (one two : Text) (slop : Option Text) :
    wordCondition? one slop token = wordCondition? two slop token := by
  unfold wordCondition?
  split
  · rename_i star
    exact absurd star noStar
  all_goals rfl

theorem not_isStar_of_wordCondition? {token : Placed Token} {field : Text} {slop : Option Text}
    {condition : Condition} (noStar : token.value ≠ .star)
    (noPattern : token.value ≠ .pattern ['*'])
    (read : wordCondition? field slop token = some (.ok condition)) : ¬ condition.IsStar := by
  unfold wordCondition? at read
  split at read
  · rename_i star
    exact absurd star noStar
  · cases read
    exact not_false
  · rcases exists_of_map_eq_ok (Option.some.inj read) with ⟨text, _, rfl⟩
    cases slop <;> exact not_false
  · rcases exists_of_map_eq_ok (Option.some.inj read) with ⟨text, _, rfl⟩
    exact not_false
  · rename_i word value
    cases read
    intro lone
    obtain rfl : word = ['*'] := lone
    exact noPattern value
  · cases read
    exact not_false
  · cases read

theorem FieldsCorrespond.leaf {one two : Text} {condition : Condition}
    (fields : FieldsCorrespond all first second one two) (noStar : ¬ condition.IsStar) :
    Query.Corresponds all first second (.leaf ⟨one, condition⟩) (.leaf ⟨two, condition⟩) := by
  cases fields with
  | named named => exact .leaf (.named named)
  | default => exact .leaf (.default noStar)

theorem FieldsCorrespond.star {one two : Text}
    (fields : FieldsCorrespond all first second one two) :
    Query.Corresponds all first second (.leaf ⟨one, starCondition one⟩)
      (.leaf ⟨two, starCondition two⟩) := by
  cases fields with
  | named named => exact .leaf (.named named)
  | default => exact .leaf .star

theorem readOperand_corresponds {stop : Nat} {one two : Text} {tokens : Tokens}
    (words : ∀ token ∈ all, token.value ≠ .pattern ['*'])
    (fields : FieldsCorrespond all first second one two) (part : tokens <:+ all) :
    Reading.Corresponds (Query.Corresponds all first second) (readOperand stop one tokens)
      (readOperand stop two tokens) := by
  cases tokens with
  | nil => exact Or.inl ⟨_, rfl, rfl⟩
  | cons token rest =>
    have noPattern := words token (part.mem List.mem_cons_self)
    rw [readOperand, readOperand]
    split
    · refine .of_map fun text _ => ⟨(fields.leaf ?_).boostedBy _, rfl⟩
      exact not_false
    · refine .of_map fun condition read => ⟨(fields.leaf ?_).boostedBy _, rfl⟩
      rcases exists_of_rangeCondition read with ⟨lower, upper, rfl⟩
      exact not_false
    · dsimp only
      -- of all words only a lone star looks at its field
      by_cases star : token.value = .star
      · rw [wordCondition?_of_star star, wordCondition?_of_star star]
        exact Or.inr ⟨_, _, _, rfl, rfl, fields.star.boostedBy _⟩
      · rw [wordCondition?_congr star one two]
        split
        · exact Or.inl ⟨_, rfl, rfl⟩
        · rename_i condition found
          refine .of_map fun condition read => ⟨(fields.leaf ?_).boostedBy _, rfl⟩
          exact not_isStar_of_wordCondition? star noPattern (read ▸ found)

/-! ## Sequences of clauses -/

/-- Parts that stand in the same place of their sequences. -/
structure Part.Corresponds (all : Tokens) (first second : Text) (one two : Part) : Prop where
  conjunction : one.conjunction = two.conjunction
  modifier : one.modifier = two.modifier
  query : one.query.Corresponds all first second two.query

/-- Members that take part alike. -/
def MembersCorrespond (all : Tokens) (first second : Text) :
    List (Occur × Query) → List (Occur × Query) → Prop :=
  List.Forall₂ fun one two => one.1 = two.1 ∧ one.2.Corresponds all first second two.2

theorem MembersCorrespond.group {one two : List (Occur × Query)}
    (members : MembersCorrespond all first second one two) :
    Query.Corresponds all first second (.group one) (.group two) := by
  refine .group ?_ (members.imp fun _ _ both => both.2)
  rw [← List.forall₂_eq_eq_eq, List.forall₂_map_left_iff, List.forall₂_map_right_iff]
  exact members.imp fun _ _ both => both.1

theorem Part.Corresponds.occur {one two : Part} (parts : one.Corresponds all first second two) :
    one.occur = two.occur := by
  rw [Part.occur, Part.occur, parts.conjunction, parts.modifier]

theorem MembersCorrespond.demand {one two : List (Occur × Query)}
    (members : MembersCorrespond all first second one two) :
    MembersCorrespond all first second (one.modifyHead demand) (two.modifyHead demand) := by
  cases members with
  | nil => exact .nil
  | @cons left right _ _ both rest =>
    refine .cons ?_ rest
    rw [AlarmQuery.demand, AlarmQuery.demand, both.1]
    split
    · exact both
    · exact ⟨rfl, both.2⟩

theorem MembersCorrespond.addPart {one two : List (Occur × Query)} {left right : Part}
    (members : MembersCorrespond all first second one two)
    (parts : left.Corresponds all first second right) :
    MembersCorrespond all first second (addPart one left) (addPart two right) := by
  rw [AlarmQuery.addPart, AlarmQuery.addPart, parts.conjunction]
  refine .cons ⟨parts.occur, parts.query⟩ ?_
  split
  · exact members.demand
  · exact members

/-- By induction on the parts, whatever members they are added to. -/
theorem MembersCorrespond.foldl_addPart {parts others : List Part}
    (correspond : List.Forall₂ (Part.Corresponds all first second) parts others)
    {one two : List (Occur × Query)} (members : MembersCorrespond all first second one two) :
    MembersCorrespond all first second (parts.foldl AlarmQuery.addPart one)
      (others.foldl AlarmQuery.addPart two) := by
  induction correspond generalizing one two with
  | nil => exact members
  | cons part _ ih => exact ih (members.addPart part)

theorem assemble_corresponds {left right : Part} {parts others : List Part}
    (leads : left.Corresponds all first second right)
    (follow : List.Forall₂ (Part.Corresponds all first second) parts others) :
    Query.Corresponds all first second (assemble left parts) (assemble right others) := by
  have grouped : MembersCorrespond all first second (groupMembers (left :: parts))
      (groupMembers (right :: others)) := by
    rw [groupMembers, groupMembers]
    exact List.rel_reverse (MembersCorrespond.foldl_addPart (.cons leads follow) .nil)
  have empty : parts.isEmpty = others.isEmpty := by
    cases follow <;> rfl
  rw [assemble, assemble, empty, leads.modifier]
  split
  · exact leads.query
  · exact grouped.group

/-! ## Readers -/

theorem named_of_takeField? {tokens rest : Tokens} {name : Text} (part : tokens <:+ all)
    (taken : takeField? tokens = some (.ok name, rest)) : NamedIn all name ∧ rest <:+ all := by
  rcases names_of_takeField? taken with ⟨token, colon, rfl, names, separates⟩
  have before : [token, colon] <:+: token :: colon :: rest := ⟨[], rest, rfl⟩
  refine ⟨⟨token, colon, before.trans part.isInfix, separates, names⟩, ?_⟩
  exact List.IsSuffix.trans ⟨[token, colon], rfl⟩ part

/-- Two readers of queries correspond on the tokens of the text. -/
def Reader.Corresponds (all : Tokens) (first second : Text) (one two : Reader Query) : Prop :=
  ∀ tokens, tokens <:+ all →
    Reading.Corresponds (Query.Corresponds all first second) (one.run tokens) (two.run tokens)

section

variable {one two : Reader Query}

/-- The clauses behind the first one, by induction on the tokens that are left. -/
theorem readParts_corresponds (readers : one.Corresponds all first second two)
    (left : ∀ {tokens rest query}, one.run tokens = .ok (query, rest) → rest <:+ tokens)
    {tokens : Tokens} (part : tokens <:+ all) :
    Reading.Corresponds (List.Forall₂ (Part.Corresponds all first second))
      (readParts one tokens) (readParts two tokens) := by
  fun_induction readParts one tokens with
  | case1 tokens more conjunction modifier found failed =>
    have before := (suffix_takeModifier conjunction.2).trans (suffix_takeConjunction tokens)
    rcases readers _ (before.trans part) with ⟨fault, fails, alike⟩ | ⟨_, _, _, reads, _⟩
    · cases failed.symm.trans fails
      -- the recursion follows the first reader, so the step of the second one is made by hand
      rw [readParts_eq_of_continues two more, alike]
      exact Or.inl ⟨found, rfl, rfl⟩
    · rw [failed] at reads
      cases reads
  | case2 tokens more conjunction modifier query rest read later =>
    have before := (suffix_takeModifier conjunction.2).trans (suffix_takeConjunction tokens)
    have behind := (left read).trans (before.trans part)
    rcases readers _ (before.trans part) with
      ⟨fault, fails, _⟩ | ⟨_, other, _, reads, alike, queries⟩
    · rw [read] at fails
      cases fails
    · rw [read] at reads
      cases reads
      rw [readParts_eq_of_continues two more, alike]
      exact (later behind).map fun parts => .cons ⟨rfl, rfl, queries⟩ parts
  | case3 tokens ended =>
    rw [readParts.eq_def, if_neg ended]
    exact Or.inr ⟨[], [], tokens, rfl, rfl, .nil⟩

theorem readSequence_corresponds (readers : one.Corresponds all first second two)
    (left : ∀ {tokens rest query}, one.run tokens = .ok (query, rest) → rest <:+ tokens) :
    (sequence one).Corresponds all first second (sequence two) := by
  intro tokens part
  have before := suffix_takeModifier tokens
  show Reading.Corresponds _ (readSequence one tokens) (readSequence two tokens)
  rw [readSequence, readSequence]
  dsimp only
  rcases readers _ (before.trans part) with
    ⟨fault, fails, alike⟩ | ⟨query, other, rest, reads, alike, queries⟩
  · rw [fails, alike]
    exact Or.inl ⟨fault, rfl, rfl⟩
  · rw [reads, alike]
    have behind := (left reads).trans (before.trans part)
    exact (readParts_corresponds readers left behind).map fun parts =>
      assemble_corresponds ⟨rfl, rfl, queries⟩ parts

end

section

variable {stop budget : Nat} {one two : Text}

theorem readBody_corresponds (words : ∀ token ∈ all, token.value ≠ .pattern ['*'])
    (inner : ∀ smaller, budget = smaller + 1 → ∀ {one two},
      FieldsCorrespond all first second one two →
        (queryReader stop smaller one).Corresponds all first second
          (queryReader stop smaller two))
    (fields : FieldsCorrespond all first second one two) {tokens : Tokens}
    (part : tokens <:+ all) :
    Reading.Corresponds (Query.Corresponds all first second)
      (readBody stop (innerReader? stop budget) one tokens)
      (readBody stop (innerReader? stop budget) two tokens) := by
  cases tokens with
  | nil => exact readOperand_corresponds words fields part
  | cons opening following =>
    have content : following <:+ all := (List.suffix_cons opening following).trans part
    rw [readBody.eq_def, readBody.eq_def stop _ two]
    dsimp only
    split
    · cases budget with
      | zero => exact Or.inl ⟨_, rfl, rfl⟩
      | succ smaller =>
        simp only [innerReader?]
        rcases inner smaller rfl fields following content with
          ⟨fault, fails, alike⟩ | ⟨query, other, behind, reads, alike, queries⟩
        · rw [fails, alike]
          exact Or.inl ⟨fault, rfl, rfl⟩
        · rw [reads, alike]
          cases behind with
          | nil => exact Or.inl ⟨_, rfl, rfl⟩
          | cons closing behind =>
            dsimp only
            split
            · exact Or.inr ⟨_, _, _, rfl, rfl, queries.boostedBy _⟩
            · exact Or.inl ⟨_, rfl, rfl⟩
    · exact readOperand_corresponds words fields part

theorem clause_corresponds (words : ∀ token ∈ all, token.value ≠ .pattern ['*'])
    (inner : ∀ smaller, budget = smaller + 1 → ∀ {one two},
      FieldsCorrespond all first second one two →
        (queryReader stop smaller one).Corresponds all first second
          (queryReader stop smaller two))
    (fields : FieldsCorrespond all first second one two) :
    (clause stop (innerReader? stop budget) one).Corresponds all first second
      (clause stop (innerReader? stop budget) two) := by
  intro tokens part
  show Reading.Corresponds _ (readClause _ _ one tokens) (readClause _ _ two tokens)
  rw [readClause, readClause]
  split
  · exact readBody_corresponds words inner fields part
  · exact Or.inl ⟨_, rfl, rfl⟩
  · rename_i name rest taken
    rcases named_of_takeField? part taken with ⟨named, behind⟩
    exact readBody_corresponds words inner (.named named) behind

/-- Within any budget, by induction on it. -/
theorem queryReader_corresponds (words : ∀ token ∈ all, token.value ≠ .pattern ['*'])
    (stop budget : Nat) (fields : FieldsCorrespond all first second one two) :
    (queryReader stop budget one).Corresponds all first second (queryReader stop budget two) := by
  induction budget using budget_induction generalizing one two with
  | step budget inner =>
    rw [queryReader_eq, queryReader_eq]
    exact readSequence_corresponds (clause_corresponds words inner fields)
      (suffix_clause stop budget one)

end

end

/-! ## Whole texts -/

theorem ne_pattern_of_scan {text : Text} {scanned : Scanned} (scans : scan text = .ok scanned) :
    ∀ token ∈ scanned.tokens, token.value ≠ .pattern ['*'] := by
  intro token member pattern
  have word : token.value.word? = some ['*'] := by
    rw [pattern]
    rfl
  have known := ofWord_of_scan scans token member ['*'] word
  rw [pattern] at known
  exact absurd known (by decide)

theorem Query.ofTokens_corresponds {scanned : Scanned} (first second : Text)
    (words : ∀ token ∈ scanned.tokens, token.value ≠ .pattern ['*']) :
    (∃ fault, Query.ofTokens scanned first = .error fault ∧
        Query.ofTokens scanned second = .error fault) ∨
      ∃ one two, Query.ofTokens scanned first = .ok one ∧ Query.ofTokens scanned second = .ok two ∧
        one.Corresponds scanned.tokens first second two := by
  rw [Query.ofTokens, Query.ofTokens]
  rcases queryReader_corresponds words scanned.stop maxNesting .default scanned.tokens
    (List.suffix_refl _) with ⟨fault, fails, alike⟩ | ⟨one, two, rest, reads, alike, queries⟩
  · rw [fails, alike]
    exact Or.inl ⟨fault, rfl, rfl⟩
  · rw [reads, alike]
    cases rest with
    | nil => exact Or.inr ⟨one, two, rfl, rfl, queries⟩
    | cons => exact Or.inl ⟨_, rfl, rfl⟩

/-- With two default fields a text is turned down for the same fault at the same place, or it is
read as queries that correspond, and whether it is accepted is the same. -/
theorem Query.parse_corresponds (text first second : Text) :
    ((∃ fault, Query.parse text first = .error fault ∧ Query.parse text second = .error fault) ∨
      ∃ scanned one two, scan text = .ok scanned ∧ Query.parse text first = .ok one ∧
        Query.parse text second = .ok two ∧ one.Corresponds scanned.tokens first second two) ∧
      Query.validate text first = Query.validate text second := by
  have parsed : (∃ fault, Query.parse text first = .error fault ∧
      Query.parse text second = .error fault) ∨
      ∃ scanned one two, scan text = .ok scanned ∧ Query.parse text first = .ok one ∧
        Query.parse text second = .ok two ∧ one.Corresponds scanned.tokens first second two := by
    rw [Query.parse, Query.parse]
    cases scans : scan text with
    | error fault => exact Or.inl ⟨fault, rfl, rfl⟩
    | ok scanned =>
      rcases Query.ofTokens_corresponds first second (ne_pattern_of_scan scans) with
        failed | ⟨one, two, queries⟩
      · exact Or.inl failed
      · exact Or.inr ⟨scanned, one, two, rfl, queries⟩
  refine ⟨parsed, ?_⟩
  rw [Query.validate, Query.validate]
  rcases parsed with ⟨fault, fails, alike⟩ | ⟨scanned, one, two, _, reads, alike, _⟩
  · rw [fails, alike]
  · rw [reads, alike]

end AlarmQuery
