import AlarmQuery.Clause.OfQuery
import AlarmQuery.Proofs.Text.Unescape
import Mathlib.Data.List.Forall2

/-!
# The leaves of a query

A query is taken apart leaf by leaf.  Boosts and groups have no conditions of their own, so a query
that is a list of clauses has exactly one clause for each of its leaves, in the same order.
-/

namespace AlarmQuery

mutual

/-- The conditions of a query from left to right. -/
def Query.leaves : Query → List Leaf
  | .leaf content => [content]
  | .group members => memberLeaves members
  | .boosted inner _ => inner.leaves

/-- The conditions of the members of a group. -/
def memberLeaves : List (Occur × Query) → List Leaf
  | [] => []
  | (_, query) :: members => query.leaves ++ memberLeaves members

end

theorem memberLeaves_eq (members : List (Occur × Query)) :
    memberLeaves members = members.flatMap fun member => member.2.leaves := by
  induction members with
  | nil => rfl
  | cons member members ih => exact congrArg (member.2.leaves ++ ·) ih

/-! ## Leaves of what is put together -/

@[simp]
theorem Query.leaves_boostedBy (query : Query) (boost : Option Boost) :
    (query.boostedBy boost).leaves = query.leaves := by
  cases boost <;> rfl

@[simp]
theorem map_snd_modifyHead_demand (members : List (Occur × Query)) :
    (members.modifyHead demand).map Prod.snd = members.map Prod.snd := by
  cases members with
  | nil => rfl
  | cons member members =>
    rw [List.modifyHead_cons, List.map_cons, List.map_cons, demand]
    split <;> rfl

/-- Conjunctions change how the parts of a sequence take part, but not what they are. -/
theorem map_snd_foldl_addPart (parts : List Part) (members : List (Occur × Query)) :
    (parts.foldl addPart members).map Prod.snd =
      (parts.map Part.query).reverse ++ members.map Prod.snd := by
  induction parts generalizing members with
  | nil => rfl
  | cons part parts ih =>
    have earlier : (addPart members part).map Prod.snd = part.query :: members.map Prod.snd := by
      rw [addPart]
      split
      · exact congrArg (part.query :: ·) (map_snd_modifyHead_demand members)
      · rfl
    rw [List.foldl_cons, ih, earlier]
    simp

theorem map_snd_groupMembers (parts : List Part) :
    (groupMembers parts).map Prod.snd = parts.map Part.query := by
  rw [groupMembers, List.map_reverse, map_snd_foldl_addPart]
  simp

theorem exists_part_of_mem_groupMembers {parts : List Part} {member : Occur × Query}
    (inside : member ∈ groupMembers parts) : ∃ part ∈ parts, part.query = member.2 := by
  have listed := List.mem_map_of_mem (f := Prod.snd) inside
  rw [map_snd_groupMembers] at listed
  exact List.mem_map.1 listed

/-- A sequence has the leaves of its parts. -/
theorem Query.leaves_assemble (first : Part) (others : List Part) :
    (assemble first others).leaves =
      (first :: others).flatMap fun part => part.query.leaves := by
  have inGroup : (groupMembers (first :: others)).flatMap (fun member => member.2.leaves) =
      (first :: others).flatMap fun part => part.query.leaves := by
    have members := congrArg (List.flatMap Query.leaves) (map_snd_groupMembers (first :: others))
    rwa [List.flatMap_map, List.flatMap_map] at members
  rw [assemble]
  split
  · rename_i single
    rw [Bool.and_eq_true, List.isEmpty_iff] at single
    rw [single.1]
    simp
  · rw [Query.leaves, memberLeaves_eq, inGroup]

/-! ## Clauses one by one -/

/-- A traversal that succeeds succeeds at every item. -/
theorem mapM_eq_ok_iff {α β ε : Type} {step : α → Except ε β} {items : List α} {results : List β} :
    items.mapM step = .ok results ↔
      List.Forall₂ (fun item result => step item = .ok result) items results := by
  induction items generalizing results with
  | nil =>
    rw [List.mapM_nil, List.forall₂_nil_left_iff]
    constructor
    · intro same
      exact (Except.ok.inj same).symm
    · rintro rfl
      rfl
  | cons item items ih =>
    rw [List.mapM_cons, List.forall₂_cons_left_iff]
    constructor
    · intro read
      cases first : step item with
      | error fault =>
        rw [first] at read
        cases read
      | ok result =>
        cases others : items.mapM step with
        | error fault =>
          rw [first, others] at read
          cases read
        | ok later =>
          rw [first, others] at read
          exact ⟨result, later, rfl, ih.1 others, (Except.ok.inj read).symm⟩
    · rintro ⟨result, later, first, others, rfl⟩
      rw [first, ih.2 others]
      rfl

/-- What stands in the second of two related lists has its partner in the first one. -/
theorem exists_mem_left {α β : Type} {related : α → β → Prop} {first : List α} {second : List β}
    (each : List.Forall₂ related first second) {item : β} (member : item ∈ second) :
    ∃ partner ∈ first, related partner item := by
  induction each with
  | nil => exact absurd member List.not_mem_nil
  | cons head _ ih =>
    rcases List.mem_cons.1 member with rfl | later
    · exact ⟨_, List.mem_cons_self, head⟩
    · rcases ih later with ⟨partner, inside, holds⟩
      exact ⟨partner, List.mem_cons_of_mem _ inside, holds⟩

namespace Clause

theorem otherField?_eq_none_iff {field : Text} {clauses : List Clause} :
    otherField? field clauses = none ↔ ∀ clause ∈ clauses, clause.field = field := by
  rw [otherField?, Option.map_eq_none_iff, List.find?_eq_none]
  constructor
  · intro same clause member
    simpa using same clause member
  · intro all clause member
    simpa using all clause member

/-- Alternatives are clauses on one field. -/
theorem ofAlternatives_eq_ok_iff {members : List (Occur × Query)} {clauses : List Clause} :
    ofAlternatives members = .ok clauses ↔
      List.Forall₂ (fun member clause => ofAlternative member.1 member.2 = .ok clause) members
        clauses ∧
      ∃ field, ∀ clause ∈ clauses, clause.field = field := by
  rw [← mapM_eq_ok_iff, ofAlternatives]
  cases read : members.mapM fun member => ofAlternative member.1 member.2 with
  | error obstacle =>
    constructor
    · intro impossible
      cases impossible
    · rintro ⟨impossible, _⟩
      cases impossible
  | ok found =>
    cases found with
    | nil =>
      constructor
      · intro same
        exact ⟨same, [], by simp [← Except.ok.inj same]⟩
      · rintro ⟨same, _⟩
        exact same
    | cons first others =>
      simp only [bind, Except.bind]
      constructor
      · intro same
        split at same
        · cases same
        · rename_i noOther
          rw [← Except.ok.inj same]
          exact ⟨rfl, first.field, otherField?_eq_none_iff.1 noOther⟩
      · rintro ⟨same, field, all⟩
        rw [← Except.ok.inj same] at all
        have noOther : otherField? first.field (first :: others) = none := by
          rw [otherField?_eq_none_iff]
          intro clause member
          rw [all clause member, all first List.mem_cons_self]
        rw [noOther]
        exact same

/-- The clauses of a group are those of its members. -/
theorem ofQuery_group_eq_ok_iff {members : List (Occur × Query)} {clauses : List Clause} :
    ofQuery (.group members) = .ok clauses ↔
      ∃ parts, List.Forall₂ (fun member part => ofOuterMember member.1 member.2 = .ok part)
        members parts ∧ parts.flatten = clauses := by
  rw [ofQuery]
  constructor
  · intro read
    cases found : members.mapM fun member => ofOuterMember member.1 member.2 with
    | error obstacle =>
      rw [found] at read
      cases read
    | ok parts =>
      rw [found] at read
      exact ⟨parts, mapM_eq_ok_iff.1 found, Except.ok.inj read⟩
  · rintro ⟨parts, each, rfl⟩
    rw [mapM_eq_ok_iff.2 each]
    rfl

end Clause

/-- The clause is what the leaf is under some negation. -/
def Leaf.Yields (leaf : Leaf) (clause : Clause) : Prop :=
  ∃ negation, Clause.ofLeaf negation leaf = .ok clause

namespace Leaf.Yields

variable {leaf : Leaf} {clause : Clause}

theorem field_eq (yields : leaf.Yields clause) : clause.field = leaf.field := by
  rcases yields with ⟨negation, read⟩
  rw [Clause.ofLeaf.eq_def] at read
  repeat' split at read
  all_goals cases read
  all_goals rfl

/-- The content of a clause comes from one of four kinds of conditions. -/
theorem condition_cases (yields : leaf.Yields clause) :
    leaf.condition = .term clause.term ∨
      (∃ pattern, leaf.condition = .wildcard pattern ∧ livePattern? pattern = some clause.term) ∨
      (∃ beginning, leaf.condition = .startsWith beginning ∧ clause.term = beginning ++ ['*']) ∨
      leaf.condition = .range (some clause.term) (some clause.upTo) true true := by
  rcases leaf with ⟨field, condition⟩
  rcases yields with ⟨negation, read⟩
  cases condition with
  | term text =>
    cases read
    exact Or.inl rfl
  | wildcard pattern =>
    cases live : livePattern? pattern with
    | none =>
      simp only [Clause.ofLeaf, live] at read
      cases read
    | some term =>
      simp only [Clause.ofLeaf, live] at read
      cases read
      exact Or.inr (Or.inl ⟨pattern, rfl, live⟩)
  | startsWith beginning =>
    simp only [Clause.ofLeaf] at read
    split at read
    · cases read
    · cases read
      exact Or.inr (Or.inr (Or.inl ⟨beginning, rfl, rfl⟩))
  | range lower upper lowerInclusive upperInclusive =>
    simp only [Clause.ofLeaf] at read
    split at read
    · rename_i inclusive
      rw [Bool.and_eq_true] at inclusive
      rcases inclusive with ⟨rfl, rfl⟩
      split at read
      · cases read
        exact Or.inr (Or.inr (Or.inr rfl))
      · cases read
    · cases read
  | regexp expression => cases read
  | fuzzy text slop => cases read
  | everything => cases read

theorem live_of_isRange (yields : leaf.Yields clause) (range : clause.isRange = true) :
    clause.literal = false := by
  rcases yields with ⟨negation, read⟩
  rw [Clause.ofLeaf.eq_def] at read
  repeat' split at read
  all_goals cases read
  all_goals first | rfl | cases range

end Leaf.Yields

/-- Every condition of the query is a clause under some negation. -/
def Query.Valued (query : Query) : Prop := ∀ leaf ∈ query.leaves, ∃ clause, leaf.Yields clause

namespace Clause

theorem yields_of_ofMember {occur : Occur} {query : Query} {clause : Clause}
    (read : ofMember occur query = .ok clause) :
    ∃ leaf, query = .leaf leaf ∧ leaf.Yields clause := by
  rw [ofMember.eq_def] at read
  split at read
  · cases read
  · rename_i negation _
    split at read
    · rename_i leaf
      exact ⟨leaf, rfl, negation, read⟩
    · cases read

theorem yields_of_ofAlternative {occur : Occur} {query : Query} {clause : Clause}
    (read : ofAlternative occur query = .ok clause) :
    ∃ leaf, query.leaves = [leaf] ∧ leaf.Yields clause := by
  rw [ofAlternative.eq_def] at read
  split at read
  · split at read
    · cases read
    · split at read
      · rename_i innerOccur inner
        rcases yields_of_ofMember read with ⟨leaf, rfl, yields⟩
        exact ⟨leaf, rfl, yields⟩
      · cases read
  · rcases yields_of_ofMember read with ⟨leaf, rfl, yields⟩
    exact ⟨leaf, rfl, yields⟩

theorem forall₂_memberLeaves {members : List (Occur × Query)} {parts : List (List Clause)}
    (each : List.Forall₂ (fun member part => List.Forall₂ Leaf.Yields member.2.leaves part)
      members parts) :
    List.Forall₂ Leaf.Yields (memberLeaves members) parts.flatten := by
  induction each with
  | nil => exact .nil
  | cons head _ ih => exact List.rel_append head ih

theorem forall₂_leaves_of_ofAlternatives {members : List (Occur × Query)} {clauses : List Clause}
    (read : ofAlternatives members = .ok clauses) :
    List.Forall₂ Leaf.Yields (memberLeaves members) clauses := by
  have each := (ofAlternatives_eq_ok_iff.1 read).1
  clear read
  induction each with
  | nil => exact .nil
  | @cons member clause members clauses head _ ih =>
    rcases yields_of_ofAlternative head with ⟨leaf, only, yields⟩
    have first : List.Forall₂ Leaf.Yields member.2.leaves [clause] := by
      rw [only]
      exact .cons yields .nil
    exact List.rel_append first ih

/-- A member of the outermost group is a demanded group of alternatives or a single clause. -/
theorem ofOuterMember_cases {occur : Occur} {query : Query} {clauses : List Clause}
    (read : ofOuterMember occur query = .ok clauses) :
    (occur = .must ∧ ∃ members, query = .group members ∧ ofAlternatives members = .ok clauses) ∨
      ∃ clause, ofMember occur query = .ok clause ∧ clauses = [clause] := by
  rw [ofOuterMember.eq_def] at read
  split at read
  · rename_i members
    split at read
    · cases read
    · rename_i must
      exact Or.inl ⟨not_not.1 must, members, rfl, read⟩
  · cases found : ofMember occur query with
    | error obstacle =>
      rw [found] at read
      cases read
    | ok clause =>
      rw [found] at read
      exact Or.inr ⟨clause, rfl, (Except.ok.inj read).symm⟩

theorem forall₂_leaves_of_ofOuterMember {occur : Occur} {query : Query} {clauses : List Clause}
    (read : ofOuterMember occur query = .ok clauses) :
    List.Forall₂ Leaf.Yields query.leaves clauses := by
  rcases ofOuterMember_cases read with ⟨_, members, rfl, alternatives⟩ | ⟨clause, found, rfl⟩
  · exact forall₂_leaves_of_ofAlternatives alternatives
  · rcases yields_of_ofMember found with ⟨leaf, rfl, yields⟩
    exact .cons yields .nil

/-- A query that is a list of clauses has one clause for each of its leaves. -/
theorem forall₂_leaves_of_ofQuery {query : Query} {clauses : List Clause}
    (read : ofQuery query = .ok clauses) :
    List.Forall₂ Leaf.Yields query.leaves clauses := by
  cases query with
  | group members =>
    rcases ofQuery_group_eq_ok_iff.1 read with ⟨parts, each, rfl⟩
    apply forall₂_memberLeaves
    exact each.imp fun member part => forall₂_leaves_of_ofOuterMember
  | leaf content => exact @forall₂_leaves_of_ofOuterMember .must (.leaf content) _ read
  | boosted inner boost =>
    exact @forall₂_leaves_of_ofOuterMember .must (.boosted inner boost) _ read

theorem valued_of_ofQuery {query : Query} {clauses : List Clause}
    (read : ofQuery query = .ok clauses) : query.Valued := by
  intro leaf member
  rcases exists_mem_left (forall₂_leaves_of_ofQuery read).flip member with ⟨clause, _, yields⟩
  exact ⟨clause, yields⟩

end Clause

end AlarmQuery
