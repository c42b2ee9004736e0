import AlarmQuery.Proofs.Clause.Sorting
import AlarmQuery.Proofs.Clause.Tree
import AlarmQuery.Proofs.Query.Leaves

/-!
# Lists of clauses that come back

Supported clauses are read back from the query that they were written as, in the order of their
groups and each the same clause as before.
-/

namespace AlarmQuery

namespace Clause

/-! ## Writing and reading lists -/

theorem unnamed?_eq_none_iff {clauses : List Clause} :
    unnamed? clauses = none ↔ ∀ clause ∈ clauses, clause.field ≠ [] := by
  rw [unnamed?, List.find?_eq_none]
  constructor
  · intro allNamed clause member
    rcases List.mem_iff_getElem?.1 member with ⟨index, found⟩
    simpa using allNamed (clause, index) (List.mk_mem_zipIdx_iff_getElem?.2 found)
  · rintro named ⟨clause, index⟩ indexed
    simpa using named clause (List.fst_mem_of_mem_zipIdx indexed)

/-- A list is written when all its clauses name a field. -/
theorem toQuery_eq_ok_iff {clauses : List Clause} {text : Text} :
    toQuery clauses = .ok text ↔
      (∀ clause ∈ clauses, clause.field ≠ []) ∧ listText clauses = text := by
  rw [toQuery, ← unnamed?_eq_none_iff]
  cases found : unnamed? clauses with
  | none =>
    constructor
    · intro written
      exact ⟨rfl, Except.ok.inj written⟩
    · rintro ⟨_, rfl⟩
      rfl
  | some indexed =>
    constructor
    · intro impossible
      cases impossible
    · rintro ⟨impossible, _⟩
      cases impossible

theorem listText_not_blank {clauses : List Clause} (nonempty : clauses ≠ []) :
    (listText clauses).all isBlank = false := by
  rw [listText]
  split
  · rename_i empty
    exact absurd (groups_eq_nil_iff.1 empty) nonempty
  · rfl

/-- What is not blank is read as a query. -/
theorem parseList_eq_ok_iff {text field : Text} {clauses : List Clause}
    (written : text.all isBlank = false) :
    parseList text field = .ok clauses ↔
      ∃ query, Query.parse text field = .ok query ∧ ofQuery query = .ok clauses := by
  rw [parseList, written, if_neg Bool.false_ne_true]
  cases Query.parse text field with
  | error fault =>
    constructor
    · intro impossible
      cases impossible
    · rintro ⟨query, impossible, _⟩
      cases impossible
  | ok query =>
    constructor
    · intro read
      dsimp only at read
      cases found : ofQuery query with
      | error obstacle =>
        rw [found] at read
        cases read
      | ok clauses =>
        rw [found] at read
        exact ⟨query, rfl, found.trans (congrArg Except.ok (Except.ok.inj read))⟩
    · rintro ⟨other, same, read⟩
      dsimp only
      rw [Except.ok.inj same, read]
      rfl

/-! ## Lists of the same clauses -/

section

variable {first second : List Clause}

theorem map_eq_of_same {α : Type} {property : Clause → α}
    (keeps : ∀ {one two : Clause}, Same one two → property one = property two)
    (same : List.Forall₂ Same first second) : first.map property = second.map property := by
  rw [← List.forall₂_eq_eq_eq, List.forall₂_map_left_iff, List.forall₂_map_right_iff]
  exact same.imp fun _ _ => keeps

theorem onField_of_same (same : List.Forall₂ Same first second) (field : Text) :
    List.Forall₂ Same (onField field first) (onField field second) := by
  induction same with
  | nil => exact .nil
  | @cons one two _ _ head _ ih =>
    have fields : one.field = two.field := (same_iff.1 head).2.1
    by_cases inside : two.field = field
    · rw [onField, onField, List.filter_cons_of_pos (by simp [fields, inside]),
        List.filter_cons_of_pos (by simp [inside])]
      exact .cons head ih
    · rw [onField, onField, List.filter_cons_of_neg (by simp [fields, inside]),
        List.filter_cons_of_neg (by simp [inside])]
      exact ih

/-- Lists of the same clauses are written alike. -/
theorem listText_eq_of_same (same : List.Forall₂ Same first second) :
    listText first = listText second := by
  have fields : fields first = fields second := by
    rw [Clause.fields, Clause.fields, map_eq_of_same (fun one => (same_iff.1 one).2.1) same]
  rw [listText_eq, listText_eq, groups, groups, fields, List.map_map, List.map_map]
  apply congrArg (Text.join [' '])
  apply List.map_congr_left
  intro field _
  have texts := map_eq_of_same (fun one => one) (onField_of_same same field)
  simp only [Function.comp_apply, groupText, texts]

end

theorem listText_grouped (clauses : List Clause) :
    listText (grouped clauses) = listText clauses := by
  rw [listText, groups_grouped, ← listText]

/-! ## The clauses of a written list -/

theorem ofAlternative_query {clause : Clause} (listable : ¬ clause.MatchesAll) :
    ofAlternative .should clause.query = .ok clause.asRead := by
  rw [query, ofAlternative, if_neg (not_not_intro rfl), ofMember, Negation.ofOccur?_occur]
  exact ofLeaf_leaf listable

theorem ofAlternative_leaf {clause : Clause} (listable : ¬ clause.MatchesAll) :
    ofAlternative clause.negation.occur (.leaf clause.leaf) = .ok clause.asRead := by
  rw [ofAlternative, ofMember, Negation.ofOccur?_occur]
  · exact ofLeaf_leaf listable
  · intro _ impossible
    cases impossible

/-- Alternatives on one field come back as the clauses that they were. -/
theorem ofOuterMember_alternatives {field : Text} {group : List Clause}
    (onField : ∀ clause ∈ group, clause.field = field)
    (listable : ∀ clause ∈ group, ¬ clause.MatchesAll) :
    ofOuterMember .must (alternatives (group.map query)) = .ok (group.map asRead) := by
  have fields : ∃ field, ∀ clause ∈ group.map asRead, clause.field = field := by
    refine ⟨field, ?_⟩
    intro clause member
    rcases List.mem_map.1 member with ⟨source, inside, rfl⟩
    exact onField source inside
  have each : List.Forall₂ (fun member clause => ofAlternative member.1 member.2 = .ok clause)
      ((group.map query).map fun query => (Occur.should, query)) (group.map asRead) := by
    rw [List.map_map, List.forall₂_map_left_iff, List.forall₂_map_right_iff, List.forall₂_same]
    intro clause member
    exact ofAlternative_query (listable clause member)
  have inGroup := ofAlternatives_eq_ok_iff.2 ⟨each, fields⟩
  rcases group with _ | ⟨clause, _ | ⟨second, others⟩⟩
  · exact inGroup
  · have single : List.Forall₂
        (fun member clause => ofAlternative member.1 member.2 = .ok clause)
        [(clause.negation.occur, Query.leaf clause.leaf)] [clause.asRead] :=
      .cons (ofAlternative_leaf (listable clause List.mem_cons_self)) .nil
    exact ofAlternatives_eq_ok_iff.2 ⟨single, fields⟩
  · exact inGroup

/-- A written list comes back group by group. -/
theorem ofQuery_listQuery {clauses : List Clause}
    (listable : ∀ clause ∈ clauses, ¬ clause.MatchesAll) :
    ofQuery (listQuery clauses) = .ok ((grouped clauses).map asRead) := by
  rw [listQuery, ofQuery_group_eq_ok_iff]
  refine ⟨(groups clauses).map (List.map asRead), ?_, ?_⟩
  · rw [List.forall₂_map_left_iff, List.forall₂_map_right_iff, List.forall₂_same]
    intro group member
    rcases mem_groups.1 member with ⟨field, _, rfl⟩
    apply ofOuterMember_alternatives fun clause inside => (mem_onField.1 inside).2
    exact fun clause inside => listable clause (mem_onField.1 inside).1
  · rw [grouped, List.map_flatten]

/-- Readable clauses that are listable come back in the order of their groups. -/
theorem parseList_listText {clauses : List Clause}
    (readable : ∀ clause ∈ clauses, clause.Readable)
    (listable : ∀ clause ∈ clauses, ¬ clause.MatchesAll) (field : Text) :
    parseList (listText clauses) field = .ok ((grouped clauses).map asRead) := by
  by_cases empty : clauses = []
  · subst empty
    rfl
  · rw [parseList_eq_ok_iff (listText_not_blank empty)]
    exact ⟨listQuery clauses, parse_listText empty readable field, ofQuery_listQuery listable⟩

theorem sortKey_asRead (clause : Clause) : clause.asRead.sortKey = clause.sortKey := rfl

theorem forall₂_same_asRead {clauses : List Clause}
    (supported : ∀ clause ∈ clauses, clause.Supported) :
    List.Forall₂ Same (clauses.map asRead) clauses := by
  rw [List.forall₂_map_left_iff, List.forall₂_same]
  exact fun clause member => (supported clause member).same_asRead

/-- A list of supported clauses is written as a query that is read back, about any field, as the
same clauses in the order of their groups.  Once both lists are sorted they are the same. -/
theorem parseList_toQuery {clauses : List Clause}
    (supported : ∀ clause ∈ clauses, clause.Supported) (field : Text) :
    ∃ text, toQuery clauses = .ok text ∧
      parseList text field = .ok ((grouped clauses).map asRead) ∧
      List.Forall₂ Same ((grouped clauses).map asRead) (grouped clauses) ∧
      List.Forall₂ Same (sorted ((grouped clauses).map asRead)) (sorted clauses) := by
  refine ⟨listText clauses, ?_, ?_, ?_, ?_⟩
  · exact toQuery_eq_ok_iff.2 ⟨fun clause member => (supported clause member).named, rfl⟩
  · apply parseList_listText
    · exact fun clause member => (supported clause member).toReadable
    · exact fun clause member => (supported clause member).listable
  · apply forall₂_same_asRead
    exact fun clause member => supported clause (mem_grouped.1 member)
  · rw [sorted_map sortKey_asRead, sorted_grouped]
    apply forall₂_same_asRead
    exact fun clause member => supported clause (List.mem_mergeSort.1 member)

/-- A field that is named again after another one, with a literal wildcard, a live one and a
range. -/
theorem parseList_toQuery_of_named_again :
    ∃ text, toQuery
        [⟨.is, ['p', 'v'], ['a', '*'], [], true⟩, ⟨.isNot, ['n'], ['1'], ['2'], false⟩,
          ⟨.is, ['p', 'v'], ['b', '?'], [], false⟩] = .ok text ∧
      parseList text ['d'] = .ok
        [⟨.is, ['p', 'v'], ['a', '*'], [], true⟩, ⟨.is, ['p', 'v'], ['b', '?'], [], false⟩,
          ⟨.isNot, ['n'], ['1'], ['2'], false⟩] := by
  rcases @parseList_toQuery
    [⟨.is, ['p', 'v'], ['a', '*'], [], true⟩, ⟨.isNot, ['n'], ['1'], ['2'], false⟩,
      ⟨.is, ['p', 'v'], ['b', '?'], [], false⟩] (by decide) ['d'] with ⟨text, written, read, _⟩
  exact ⟨text, written, read⟩

end Clause

end AlarmQuery
