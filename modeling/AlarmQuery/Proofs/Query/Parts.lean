import AlarmQuery.Proofs.Query.Exact
import AlarmQuery.Proofs.Token.Parts

/-!
# Sequences without conjunctions

Where no conjunction stands between clauses, each takes part as its own modifier says.  So a
sequence that is written clause by clause is the group of these clauses, and a clause alone is
itself.
-/

namespace AlarmQuery

/-! ## Members and their modifiers -/

/-- How clauses with a modifier take part where there is no conjunction. -/
def Modifier.occur : Modifier → Occur
  | .none => .should
  | .required => .must
  | .prohibited => .mustNot

/-- A part of a sequence without conjunctions. -/
def Modifier.part (modifier : Modifier) (query : Query) : Part := ⟨.none, modifier, query⟩

@[simp]
theorem Modifier.occur_part (modifier : Modifier) (query : Query) :
    (modifier.part query).occur = modifier.occur := by
  cases modifier <;> rfl

/-- Without conjunctions no part changes another one. -/
theorem groupMembers_eq_map {parts : List Part}
    (unjoined : ∀ part ∈ parts, part.conjunction ≠ .and) :
    groupMembers parts = parts.map fun part => (part.occur, part.query) := by
  have added (members : List (Occur × Query)) : parts.foldl addPart members =
      (parts.map fun part => (part.occur, part.query)).reverse ++ members := by
    induction parts generalizing members with
    | nil => rfl
    | cons part parts ih =>
      have noAnd : part.conjunction ≠ .and := unjoined part List.mem_cons_self
      rw [List.foldl_cons, ih fun other member => unjoined other (List.mem_cons_of_mem _ member)]
      simp [addPart, noAnd]
  rw [groupMembers, added, List.append_nil, List.reverse_reverse]

theorem groupMembers_map_part {α : Type} (modifier : α → Modifier) (query : α → Query)
    (items : List α) :
    groupMembers (items.map fun item => (modifier item).part (query item)) =
      items.map fun item => ((modifier item).occur, query item) := by
  rw [groupMembers_eq_map, List.map_map]
  · exact List.map_congr_left fun item _ =>
      congrArg (·, query item) (Modifier.occur_part (modifier item) (query item))
  · intro part member
    rcases List.mem_map.1 member with ⟨item, _, rfl⟩
    exact Conjunction.noConfusion

/-! ## Clause by clause -/

/-- The tokens spell a clause with its modifier. -/
def SpellsPart (budget : Nat) (field : Text) (modifier : Modifier) (query : Query)
    (tokens : Tokens) : Prop :=
  ∃ sign body, tokens = sign ++ body ∧ sign.map Placed.value ∈ modifier.spellings ∧
    Spells budget field body (.clause query)

section

variable {α : Type} {budget : Nat} {field : Text} {modifier : α → Modifier} {query : α → Query}

/-- Part by part, by induction on the items. -/
theorem spells_parts {items : List α} {whole : Tokens}
    (concats : Concats (fun item => SpellsPart budget field (modifier item) (query item)) items
      whole) :
    Spells budget field whole
      (.parts (items.map fun item => (modifier item).part (query item))) := by
  induction concats with
  | nil => exact .done
  | cons head _ ih =>
    rcases head with ⟨sign, body, rfl, modifies, clause⟩
    have unjoined : ([] : Tokens).map Placed.value ∈ Conjunction.spellings .none :=
      List.mem_singleton.2 rfl
    have part := Spells.part unjoined modifies clause ih
    rw [List.nil_append] at part
    rw [List.append_assoc]
    exact part

theorem spells_sequence {first : α} {others : List α} {whole : Tokens}
    (concats : Concats (fun item => SpellsPart budget field (modifier item) (query item))
      (first :: others) whole) :
    Spells budget field whole (.sequence (assemble ((modifier first).part (query first))
      (others.map fun item => (modifier item).part (query item)))) := by
  cases concats with
  | cons head tail =>
    rcases head with ⟨sign, body, rfl, modifies, clause⟩
    rw [List.append_assoc]
    exact .sequence modifies clause (spells_parts tail)

end

/-! ## Operands without suffixes -/

section

variable {budget : Nat} {field : Text} {token : Placed Token} {condition : Condition}

theorem spells_word (read : wordCondition? field none token = some (.ok condition)) :
    Spells budget field [token] (.body (.leaf ⟨field, condition⟩)) := by
  have noSuffix : ([] : Tokens).map Placed.value ∈ wordSuffixes none none := List.mem_cons_self
  exact .word read noSuffix

theorem spells_range {lower upper : Bound} {lowerInclusive upperInclusive : Bool}
    (value : token.value = .range lower upper lowerInclusive upperInclusive)
    (read : rangeCondition lower upper lowerInclusive upperInclusive = .ok condition) :
    Spells budget field [token] (.body (.leaf ⟨field, condition⟩)) := by
  have noBoost : ([] : Tokens).map Placed.value = boostTokens none := rfl
  exact .range value read noBoost

end

/-! ## Alone and in parentheses -/

section

variable {budget : Nat} {field : Text} {tokens : Tokens} {query : Query}

/-- A clause alone is a query. -/
theorem Spells.alone (clause : Spells budget field tokens (.clause query)) :
    Spells budget field tokens (.sequence query) := by
  have noSign : ([] : Tokens).map Placed.value ∈ Modifier.spellings .none :=
    List.mem_singleton.2 rfl
  have spelled : Spells budget field ([] ++ (tokens ++ [])) (.sequence query) :=
    .sequence noSign clause .done
  rwa [List.nil_append, List.append_nil] at spelled

theorem Spells.enclose (spelled : Spells budget field tokens (.sequence query))
    {opening closing : Placed Token} (opens : opening.value = .openParen)
    (closes : closing.value = .closeParen) :
    Spells (budget + 1) field (opening :: (tokens ++ [closing])) (.body query) := by
  have noBoost : ([] : Tokens).map Placed.value = boostTokens none := rfl
  exact .parentheses opens spelled closes noBoost

theorem spells_parenthesized
    (enclosed : Parenthesized (fun content => Spells budget field content (.sequence query))
      tokens) :
    Spells (budget + 1) field tokens (.clause query) := by
  rcases enclosed with ⟨opening, content, closing, rfl, opens, closes, spelled⟩
  exact .unnamed (spelled.enclose opens closes)

end

end AlarmQuery
