import AlarmQuery.Proofs.Clause.Condition
import AlarmQuery.Proofs.Clause.ListTokens
import AlarmQuery.Proofs.Query.Parts

/-!
# The query that a list of clauses is read as

Readable clauses are read back as a group of demanded groups, one for each field, with a group of
one leaf for each clause.  A group with a single alternative is that alternative.
-/

namespace AlarmQuery

/-! ## Sequences of clauses with the same modifier -/

/-- The modifier that a negation is written as. -/
def Negation.modifier : Negation → Modifier
  | .is => .required
  | .isNot => .prohibited

@[simp]
theorem Negation.occur_modifier (negation : Negation) :
    negation.modifier.occur = negation.occur := by
  cases negation <;> rfl

/-- Clauses with one modifier are joined by it. -/
theorem spells_alike {α : Type} {budget : Nat} {field : Text} {modifier : Modifier}
    {query : α → Query} {first : α} {others : List α} {whole : Tokens}
    (concats : Concats (fun item => SpellsPart budget field modifier (query item))
      (first :: others) whole) :
    Spells budget field whole (.sequence
      (assemble (modifier.part (query first)) ((others.map query).map modifier.part))) := by
  rw [List.map_map]
  exact spells_sequence concats

/-- Alternatives one of which has to hold. -/
def alternatives : List Query → Query
  | [query] => query
  | queries => .group (queries.map fun query => (.should, query))

theorem assemble_alternatives (first : Query) (others : List Query) :
    assemble (Modifier.none.part first) (others.map Modifier.none.part) =
      alternatives (first :: others) := by
  cases others with
  | nil => rfl
  | cons other others =>
    exact congrArg Query.group
      (groupMembers_map_part (fun _ => .none) id (first :: other :: others))

theorem assemble_modified {modifier : Modifier} (modified : modifier ≠ .none) (first : Query)
    (others : List Query) :
    assemble (modifier.part first) (others.map modifier.part) =
      .group ((first :: others).map fun query => (modifier.occur, query)) := by
  have grouped : ((others.map modifier.part).isEmpty && (modifier.part first).modifier = .none) =
      false := by
    simp [Modifier.part, modified]
  rw [assemble, grouped]
  exact congrArg Query.group (groupMembers_map_part (fun _ => modifier) id (first :: others))

/-! ## The tokens of clauses and groups -/

section

variable {budget : Nat} {field : Text}

/-- The tokens of a readable clause are its negation and its leaf. -/
theorem spellsPart_readable {content : Clause} {tokens : Tokens}
    (readable : ReadableTokens content tokens) :
    SpellsPart budget field content.negation.modifier (.leaf content.leaf) tokens := by
  rcases readable with ⟨sign, name, colon, operand, lower, upper, rfl, signs, names, separates,
    denotes⟩
  have body : Spells budget content.field [operand] (.body (.leaf content.leaf)) := by
    cases range : content.isRange with
    | true =>
      have value : operand.value = .range ⟨escape content.literal content.term, true, lower⟩
          ⟨escape content.literal content.upTo, true, upper⟩ true true := by
        rw [denotes, Clause.operand, if_pos range]
      exact spells_range value (Clause.rangeCondition_operand range lower upper)
    | false =>
      have read := Clause.wordCondition?_operand range lower upper operand.position
      rw [← denotes] at read
      exact spells_word read
  have clause : Spells budget field [name, colon, operand] (.clause (.leaf content.leaf)) :=
    .named (Or.inl ⟨_, names, unescapeAt_escape _ _ _⟩) separates body
  refine ⟨[sign], [name, colon, operand], rfl, ?_, clause⟩
  cases negation : content.negation with
  | is =>
    rw [negation] at signs
    simp [signs, Negation.sign, Negation.modifier, Modifier.spellings]
  | isNot =>
    rw [negation] at signs
    simp [signs, Negation.sign, Negation.modifier, Modifier.spellings]

end

/-! ## Whole lists -/

namespace Clause

/-- The query that a clause is: a group of its leaf. -/
def query (clause : Clause) : Query := .group [(clause.negation.occur, .leaf clause.leaf)]

/-- The query that a list of clauses is: of each group one clause has to hold. -/
def listQuery (clauses : List Clause) : Query :=
  .group ((groups clauses).map fun group => (.must, alternatives (group.map query)))

theorem spells_readable {clause : Clause} {tokens : Tokens}
    (readable : ReadableTokens clause tokens) (budget : Nat) (field : Text) :
    Spells budget field tokens (.sequence clause.query) := by
  have single : Concats (fun item : Clause => SpellsPart budget field clause.negation.modifier
      (Query.leaf item.leaf)) [clause] (tokens ++ []) :=
    .cons (spellsPart_readable readable) .nil
  have modified : clause.negation.modifier ≠ .none := by
    cases clause.negation <;> exact Modifier.noConfusion
  have spelled := spells_alike single
  have shape := assemble_modified modified (Query.leaf clause.leaf) []
  rw [Negation.occur_modifier] at shape
  rw [List.append_nil, List.map_nil, shape] at spelled
  exact spelled

/-- A readable clause is read back as its leaf. -/
theorem Readable.parse_text {clause : Clause} (readable : clause.Readable) (field : Text) :
    Query.parse clause.text field = .ok clause.query := by
  rcases readable.scannedAs.scan with ⟨scanned, scans, tokens⟩
  exact Query.parse_eq_ok_iff.2 ⟨scanned, scans, spells_readable tokens maxNesting field⟩

theorem spells_group {group : List Clause} (nonempty : group ≠ []) {tokens : Tokens}
    (readable : GroupTokens ReadableTokens group tokens) (budget : Nat) (field : Text) :
    Spells (budget + 1) field tokens (.sequence (alternatives (group.map query))) := by
  rcases List.exists_cons_of_ne_nil nonempty with ⟨first, others, rfl⟩
  have parts : Concats (fun item => SpellsPart (budget + 1) field .none (query item))
      (first :: others) tokens := by
    refine readable.imp ?_
    rintro item _ part ⟨opening, content, closing, rfl, opens, closes, holds⟩
    refine ⟨[], _, rfl, List.mem_singleton.2 rfl, ?_⟩
    exact spells_parenthesized
      ⟨opening, content, closing, rfl, opens, closes, spells_readable holds budget field⟩
  have spelled := spells_alike parts
  rw [assemble_alternatives] at spelled
  exact spelled

/-- The groups of a list are demanded. -/
theorem spells_list {clauses : List Clause} (nonempty : clauses ≠ []) {tokens : Tokens}
    (readable : Concats (DemandTokens ReadableTokens) (groups clauses) tokens)
    (budget : Nat) (field : Text) :
    Spells (budget + 2) field tokens (.sequence (listQuery clauses)) := by
  have present : groups clauses ≠ [] := fun empty => nonempty (groups_eq_nil_iff.1 empty)
  have parts : Concats (fun group => SpellsPart (budget + 2) field .required
      (alternatives (group.map query))) (groups clauses) tokens := by
    refine readable.imp ?_
    rintro group member part ⟨plus, enclosed, rfl, sign, opening, content, closing, rfl, opens,
      closes, holds⟩
    refine ⟨[plus], _, rfl, List.mem_singleton.2 (congrArg ([·]) sign), ?_⟩
    exact spells_parenthesized ⟨opening, content, closing, rfl, opens, closes,
      spells_group (ne_nil_of_mem_groups member) holds budget field⟩
  rcases List.exists_cons_of_ne_nil present with ⟨first, others, split⟩
  rw [split] at parts
  have spelled := spells_alike parts
  rw [assemble_modified Modifier.noConfusion, List.map_cons, List.map_map] at spelled
  rw [listQuery, split]
  exact spelled

/-- Readable clauses are read back as the groups that they were written as. -/
theorem parse_listText {clauses : List Clause} (nonempty : clauses ≠ [])
    (readable : ∀ clause ∈ clauses, clause.Readable) (field : Text) :
    Query.parse (listText clauses) field = .ok (listQuery clauses) := by
  rcases scan_listText fun clause member => (readable clause member).scannedAs with
    ⟨scanned, scans, concats⟩
  exact Query.parse_eq_ok_iff.2 ⟨scanned, scans, spells_list nonempty concats 254 field⟩

end Clause

end AlarmQuery
