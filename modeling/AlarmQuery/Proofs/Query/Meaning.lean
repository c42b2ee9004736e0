import AlarmQuery.Proofs.Query.Leaves

/-!
# What a query means

A valuation says which positive clauses hold, and from it every query has a truth value.  A query
that is a list of clauses makes demands: lists of clauses of which one has to hold.
`holds_iff_met_demands` says that the query holds exactly where all of its demands are met.
-/

namespace AlarmQuery

/-! ## Truth values -/

/-- Which positive clauses hold.  Clauses that are the same hold together. -/
structure Valuation where
  Meets : Clause → Prop
  respects : ∀ {first second : Clause}, Clause.Same first second → (Meets first ↔ Meets second)

/-- The clause without its negation. -/
def Clause.positive (clause : Clause) : Clause := { clause with negation := .is }

/-- Whether a clause holds. -/
def Clause.Holds (valuation : Valuation) (clause : Clause) : Prop :=
  match clause.negation with
  | .is => valuation.Meets clause.positive
  | .isNot => ¬ valuation.Meets clause.positive

/-- What a member of a group demands of its own truth value. -/
def Occur.Demands (occur : Occur) (truth : Prop) : Prop :=
  match occur with
  | .must => truth
  | .should => True
  | .mustNot => ¬ truth

/-- Whether one of several options has to hold, since nothing else is demanded. -/
def needsOption (members : List (Occur × Query)) : Bool :=
  (members.any fun member => member.1 = .should) && !members.any fun member => member.1 = .must

mutual

/-- Whether a query holds. -/
def Query.Holds (valuation : Valuation) : Query → Prop
  | .leaf content => ∃ clause, Clause.ofLeaf .is content = .ok clause ∧ valuation.Meets clause
  | .group members => allDemandsHold valuation members ∧
      (needsOption members = true → someOptionHolds valuation members)
  | .boosted inner _ => inner.Holds valuation

/-- Whether all demanded members of a group hold and no prohibited one. -/
def allDemandsHold (valuation : Valuation) : List (Occur × Query) → Prop
  | [] => True
  | (occur, query) :: members =>
    occur.Demands (query.Holds valuation) ∧ allDemandsHold valuation members

/-- Whether an optional member of a group holds. -/
def someOptionHolds (valuation : Valuation) : List (Occur × Query) → Prop
  | [] => False
  | (occur, query) :: members =>
    (occur = .should ∧ query.Holds valuation) ∨ someOptionHolds valuation members

end

theorem allDemandsHold_iff {valuation : Valuation} {members : List (Occur × Query)} :
    allDemandsHold valuation members ↔
      ∀ member ∈ members, member.1.Demands (member.2.Holds valuation) := by
  induction members with
  | nil => simp [allDemandsHold]
  | cons member members ih => rw [allDemandsHold, ih, List.forall_mem_cons]

theorem someOptionHolds_iff {valuation : Valuation} {members : List (Occur × Query)} :
    someOptionHolds valuation members ↔
      ∃ member ∈ members, member.1 = .should ∧ member.2.Holds valuation := by
  induction members with
  | nil => simp [someOptionHolds]
  | cons member members ih => rw [someOptionHolds, ih, List.exists_mem_cons_iff]

theorem needsOption_iff {members : List (Occur × Query)} :
    needsOption members = true ↔
      (∃ member ∈ members, member.1 = .should) ∧ ∀ member ∈ members, member.1 ≠ .must := by
  rw [needsOption, Bool.and_eq_true, Bool.not_eq_true', List.any_eq_true, List.any_eq_false]
  simp only [decide_eq_true_eq, ne_eq]

/-- A group holds when its demands do, and without any positive demand one of its options. -/
theorem holds_group {valuation : Valuation} {members : List (Occur × Query)} :
    (Query.group members).Holds valuation ↔
      (∀ member ∈ members, member.1 = .must → member.2.Holds valuation) ∧
      (∀ member ∈ members, member.1 = .mustNot → ¬ member.2.Holds valuation) ∧
      ((∃ member ∈ members, member.1 = .should) → (∀ member ∈ members, member.1 ≠ .must) →
        ∃ member ∈ members, member.1 = .should ∧ member.2.Holds valuation) := by
  rw [Query.Holds, allDemandsHold_iff, someOptionHolds_iff, needsOption_iff, and_imp]
  constructor
  · rintro ⟨each, options⟩
    refine ⟨?_, ?_, options⟩
    · intro member inside must
      have holds := each member inside
      rwa [must] at holds
    · intro member inside mustNot
      have holds := each member inside
      rwa [mustNot] at holds
  · rintro ⟨must, mustNot, options⟩
    refine ⟨?_, options⟩
    rintro ⟨occur, query⟩ inside
    cases occur with
    | must => exact must _ inside rfl
    | should => trivial
    | mustNot => exact mustNot _ inside rfl

/-! ## Demands -/

/-- The clauses of the members of a group that are options, or of those that are none. -/
def memberClauses (optional : Bool) (members : List (Occur × Query)) : List Clause :=
  members.filterMap fun (occur, query) =>
    if decide (occur = .should) = optional then (Clause.ofAlternative occur query).toOption
    else none

/-- What a group of alternatives demands: each clause that is no option, and one of the options
unless a positive demand makes them superfluous. -/
def alternativesDemands (members : List (Occur × Query)) : List (List Clause) :=
  (memberClauses false members).map ([·]) ++
    if needsOption members then [memberClauses true members] else []

/-- What a member of the outermost group demands. -/
def outerDemands (occur : Occur) (query : Query) : List (List Clause) :=
  match query with
  | .group members => alternativesDemands members
  | query => ((Clause.ofMember occur query).toOption.map ([·])).toList

/-- What a query that is a list of clauses demands.  Of each demand one clause has to hold. -/
def Query.demands (query : Query) : List (List Clause) :=
  match query with
  | .group members => members.flatMap fun (occur, query) => outerDemands occur query
  | query => outerDemands .must query

/-- The demands are met when of each of them a clause holds. -/
def Met (valuation : Valuation) (demands : List (List Clause)) : Prop :=
  ∀ demand ∈ demands, ∃ clause ∈ demand, clause.Holds valuation

theorem met_append {valuation : Valuation} {first second : List (List Clause)} :
    Met valuation (first ++ second) ↔ Met valuation first ∧ Met valuation second := by
  rw [Met, List.forall_mem_append]
  rfl

/-! ## Members and their demands -/

namespace Clause

variable {valuation : Valuation} {occur : Occur} {query : Query} {clause : Clause}

/-- The negation of a clause comes from how its leaf takes part. -/
theorem ofLeaf_eq_map (negation : Negation) (leaf : Leaf) :
    ofLeaf negation leaf = (ofLeaf .is leaf).map fun clause => { clause with negation } := by
  rcases leaf with ⟨field, condition⟩
  cases condition with
  | wildcard pattern =>
    simp only [ofLeaf]
    cases livePattern? pattern <;> rfl
  | startsWith beginning =>
    simp only [ofLeaf]
    split <;> rfl
  | range lower upper lowerInclusive upperInclusive =>
    simp only [ofLeaf]
    split
    · cases lower <;> cases upper <;> rfl
    · rfl
  | _ => rfl

theorem holds_leaf {negation : Negation} {leaf : Leaf}
    (read : ofLeaf negation leaf = .ok clause) :
    clause.negation = negation ∧
      ((Query.leaf leaf).Holds valuation ↔ valuation.Meets clause.positive) := by
  rw [ofLeaf_eq_map] at read
  rw [Query.Holds]
  cases found : ofLeaf .is leaf with
  | error obstacle =>
    rw [found] at read
    cases read
  | ok plain =>
    rw [found] at read
    cases read
    have positive : plain.negation = .is := by
      have twice := ofLeaf_eq_map .is leaf
      rw [found] at twice
      exact congrArg Clause.negation (Except.ok.inj twice)
    refine ⟨rfl, ?_⟩
    have same : ({ plain with negation } : Clause).positive = plain := by
      rw [Clause.positive, ← positive]
    rw [same]
    constructor
    · rintro ⟨other, read, meets⟩
      rwa [Except.ok.inj read]
    · intro meets
      exact ⟨plain, rfl, meets⟩

/-- A member that is a clause demands that the clause holds. -/
theorem demands_iff_of_ofMember (read : ofMember occur query = .ok clause) :
    occur ≠ .should ∧ (occur.Demands (query.Holds valuation) ↔ clause.Holds valuation) := by
  rcases yields_of_ofMember read with ⟨leaf, rfl, _⟩
  cases occur with
  | must =>
    rcases @holds_leaf valuation clause .is leaf read with ⟨negation, holds⟩
    refine ⟨Occur.noConfusion, ?_⟩
    rw [Clause.Holds, negation]
    exact holds
  | should => cases read
  | mustNot =>
    rcases @holds_leaf valuation clause .isNot leaf read with ⟨negation, holds⟩
    refine ⟨Occur.noConfusion, ?_⟩
    rw [Clause.Holds, negation]
    exact not_congr holds

/-- An alternative that is an option holds when its clause does, any other one demands it. -/
theorem holds_iff_of_ofAlternative (read : ofAlternative occur query = .ok clause) :
    (occur = .should → (query.Holds valuation ↔ clause.Holds valuation)) ∧
      (occur ≠ .should → (occur.Demands (query.Holds valuation) ↔ clause.Holds valuation)) := by
  rw [ofAlternative.eq_def] at read
  split at read
  · split at read
    · cases read
    · rename_i option
      rw [not_not] at option
      split at read
      · rename_i innerOccur inner
        rcases @demands_iff_of_ofMember valuation _ _ _ read with ⟨noOption, demands⟩
        refine ⟨fun _ => ?_, fun other => absurd option other⟩
        rw [Query.Holds, allDemandsHold_iff, needsOption_iff]
        simp [noOption, demands]
      · cases read
  · rcases @demands_iff_of_ofMember valuation _ _ _ read with ⟨noOption, demands⟩
    exact ⟨fun option => absurd option noOption, fun _ => demands⟩

end Clause

/-! ## Demands of groups -/

theorem mem_memberClauses {optional : Bool} {members : List (Occur × Query)} {clause : Clause} :
    clause ∈ memberClauses optional members ↔ ∃ member ∈ members,
      decide (member.1 = .should) = optional ∧
        Clause.ofAlternative member.1 member.2 = .ok clause := by
  rw [memberClauses, List.mem_filterMap]
  constructor
  · rintro ⟨member, inside, found⟩
    refine ⟨member, inside, ?_⟩
    dsimp only at found
    split at found
    · rename_i option
      refine ⟨option, ?_⟩
      cases read : Clause.ofAlternative member.1 member.2 with
      | error obstacle =>
        rw [read] at found
        cases found
      | ok clause =>
        rw [read] at found
        cases found
        rfl
    · cases found
  · rintro ⟨member, inside, option, read⟩
    refine ⟨member, inside, ?_⟩
    dsimp only
    rw [if_pos option, read]
    rfl

/-- Demands that are made of clauses: each of some clauses on one field, and for every clause there
is a demand on its field. -/
structure Covers (demands : List (List Clause)) (clauses : List Clause) : Prop where
  inside : ∀ demand ∈ demands, ∀ clause ∈ demand, clause ∈ clauses
  nonempty : ∀ demand ∈ demands, demand ≠ []
  oneField : ∀ demand ∈ demands, ∃ field, ∀ clause ∈ demand, clause.field = field
  reaches : ∀ clause ∈ clauses, ∃ demand ∈ demands, ∃ member ∈ demand,
    member.field = clause.field

namespace Covers

theorem nil : Covers [] [] where
  inside _ absent := absurd absent List.not_mem_nil
  nonempty _ absent := absurd absent List.not_mem_nil
  oneField _ absent := absurd absent List.not_mem_nil
  reaches _ absent := absurd absent List.not_mem_nil

theorem singleton (clause : Clause) : Covers [[clause]] [clause] where
  inside demand member := by
    rw [List.mem_singleton.1 member]
    exact fun _ inside => inside
  nonempty demand member := by
    rw [List.mem_singleton.1 member]
    exact List.cons_ne_nil clause []
  oneField demand member := by
    rw [List.mem_singleton.1 member]
    exact ⟨clause.field, fun other inside => by rw [List.mem_singleton.1 inside]⟩
  reaches other member := by
    rw [List.mem_singleton.1 member]
    exact ⟨[clause], List.mem_cons_self, clause, List.mem_cons_self, rfl⟩

theorem append {first second : List (List Clause)} {clauses others : List Clause}
    (one : Covers first clauses) (two : Covers second others) :
    Covers (first ++ second) (clauses ++ others) where
  inside demand member clause inside := by
    rcases List.mem_append.1 member with inFirst | inSecond
    · exact List.mem_append_left _ (one.inside demand inFirst clause inside)
    · exact List.mem_append_right _ (two.inside demand inSecond clause inside)
  nonempty demand member := by
    rcases List.mem_append.1 member with inFirst | inSecond
    · exact one.nonempty demand inFirst
    · exact two.nonempty demand inSecond
  oneField demand member := by
    rcases List.mem_append.1 member with inFirst | inSecond
    · exact one.oneField demand inFirst
    · exact two.oneField demand inSecond
  reaches clause member := by
    rcases List.mem_append.1 member with inFirst | inSecond
    · rcases one.reaches clause inFirst with ⟨demand, inside, reached⟩
      exact ⟨demand, List.mem_append_left _ inside, reached⟩
    · rcases two.reaches clause inSecond with ⟨demand, inside, reached⟩
      exact ⟨demand, List.mem_append_right _ inside, reached⟩

end Covers

section

variable {valuation : Valuation} {members : List (Occur × Query)} {clauses : List Clause}

/-- A group of alternatives holds exactly where its demands are met. -/
theorem holds_iff_met_alternatives (read : Clause.ofAlternatives members = .ok clauses) :
    (Query.group members).Holds valuation ↔ Met valuation (alternativesDemands members) := by
  have each := (Clause.ofAlternatives_eq_ok_iff.1 read).1
  have all : allDemandsHold valuation members ↔
      ∀ clause ∈ memberClauses false members, clause.Holds valuation := by
    rw [allDemandsHold_iff]
    constructor
    · intro demands clause inside
      rcases mem_memberClauses.1 inside with ⟨member, present, option, found⟩
      exact ((Clause.holds_iff_of_ofAlternative found).2 (of_decide_eq_false option)).1
        (demands member present)
    · intro holds member present
      by_cases option : member.1 = .should
      · rw [option]
        trivial
      · rcases exists_mem_left each.flip present with ⟨clause, _, found⟩
        apply ((Clause.holds_iff_of_ofAlternative found).2 option).2
        exact holds clause
          (mem_memberClauses.2 ⟨member, present, decide_eq_false option, found⟩)
  have options : someOptionHolds valuation members ↔
      ∃ clause ∈ memberClauses true members, clause.Holds valuation := by
    rw [someOptionHolds_iff]
    constructor
    · rintro ⟨member, present, option, holds⟩
      rcases exists_mem_left each.flip present with ⟨clause, _, found⟩
      refine ⟨clause, ?_, ((Clause.holds_iff_of_ofAlternative found).1 option).1 holds⟩
      exact mem_memberClauses.2 ⟨member, present, decide_eq_true option, found⟩
    · rintro ⟨clause, inside, holds⟩
      rcases mem_memberClauses.1 inside with ⟨member, present, option, found⟩
      have isOption := of_decide_eq_true option
      exact ⟨member, present, isOption,
        ((Clause.holds_iff_of_ofAlternative found).1 isOption).2 holds⟩
  rw [Query.Holds, all, options, alternativesDemands, met_append]
  apply and_congr
  · simp [Met]
  · split
    · rename_i needed
      simp [Met, needed]
    · rename_i notNeeded
      simp [Met, notNeeded]

/-- A demand of a group is a clause that is no option, or consists of all options. -/
theorem alternativesDemands_cases {demand : List Clause}
    (member : demand ∈ alternativesDemands members) :
    (∃ clause ∈ memberClauses false members, [clause] = demand) ∨
      (needsOption members = true ∧ memberClauses true members = demand) := by
  rw [alternativesDemands, List.mem_append, List.mem_map] at member
  rcases member with single | options
  · exact Or.inl single
  · split at options
    · rename_i needed
      exact Or.inr ⟨needed, (List.mem_singleton.1 options).symm⟩
    · exact absurd options List.not_mem_nil

theorem mem_of_mem_memberClauses (read : Clause.ofAlternatives members = .ok clauses)
    {optional : Bool} {clause : Clause} (inside : clause ∈ memberClauses optional members) :
    clause ∈ clauses := by
  rcases mem_memberClauses.1 inside with ⟨member, present, _, found⟩
  rcases exists_mem_left (Clause.ofAlternatives_eq_ok_iff.1 read).1.flip present with
    ⟨other, inClauses, same⟩
  rwa [Except.ok.inj (found.symm.trans same)]

theorem memberClauses_ne_nil (read : Clause.ofAlternatives members = .ok clauses)
    {member : Occur × Query} (present : member ∈ members) :
    memberClauses (decide (member.1 = .should)) members ≠ [] := by
  rcases exists_mem_left (Clause.ofAlternatives_eq_ok_iff.1 read).1.flip present with
    ⟨clause, _, found⟩
  exact List.ne_nil_of_mem (mem_memberClauses.2 ⟨member, present, rfl, found⟩)

theorem ne_nil_of_mem_alternativesDemands (read : Clause.ofAlternatives members = .ok clauses)
    {demand : List Clause} (member : demand ∈ alternativesDemands members) : demand ≠ [] := by
  rcases alternativesDemands_cases member with ⟨clause, _, rfl⟩ | ⟨needed, rfl⟩
  · exact List.cons_ne_nil clause []
  · rcases (needsOption_iff.1 needed).1 with ⟨option, present, should⟩
    have nonempty := memberClauses_ne_nil read present
    rwa [should] at nonempty

theorem alternativesDemands_ne_nil (read : Clause.ofAlternatives members = .ok clauses)
    (nonempty : members ≠ []) : alternativesDemands members ≠ [] := by
  -- a demanded clause is a demand of its own, and without one the options are a demand
  by_cases required : ∃ member ∈ members, member.1 ≠ .should
  · rcases required with ⟨member, present, noOption⟩
    have demanded := memberClauses_ne_nil read present
    rw [decide_eq_false noOption] at demanded
    rw [alternativesDemands]
    exact List.append_ne_nil_of_left_ne_nil (List.map_eq_nil_iff.not.2 demanded) _
  · push Not at required
    have needed : needsOption members = true := by
      rw [needsOption_iff]
      rcases List.exists_mem_of_ne_nil members nonempty with ⟨member, present⟩
      refine ⟨⟨member, present, required member present⟩, ?_⟩
      intro other inside must
      exact Occur.noConfusion (must.symm.trans (required other inside))
    rw [alternativesDemands, if_pos needed]
    exact List.append_ne_nil_of_right_ne_nil _ (List.cons_ne_nil _ [])

/-- The demands of a group of alternatives cover its clauses. -/
theorem covers_alternatives (read : Clause.ofAlternatives members = .ok clauses) :
    Covers (alternativesDemands members) clauses := by
  rcases Clause.ofAlternatives_eq_ok_iff.1 read with ⟨each, field, onField⟩
  have inside : ∀ demand ∈ alternativesDemands members, ∀ clause ∈ demand, clause ∈ clauses := by
    intro demand member clause present
    rcases alternativesDemands_cases member with ⟨other, required, rfl⟩ | ⟨_, rfl⟩
    · rw [List.mem_singleton.1 present]
      exact mem_of_mem_memberClauses read required
    · exact mem_of_mem_memberClauses read present
  refine ⟨inside, ?_, ?_, ?_⟩
  · exact fun demand member => ne_nil_of_mem_alternativesDemands read member
  · intro demand member
    exact ⟨field, fun clause present => onField clause (inside demand member clause present)⟩
  · intro clause member
    rcases exists_mem_left each member with ⟨source, present, _⟩
    have nonempty := alternativesDemands_ne_nil read (List.ne_nil_of_mem present)
    rcases List.exists_mem_of_ne_nil _ nonempty with ⟨demand, inDemands⟩
    rcases List.exists_mem_of_ne_nil demand (ne_nil_of_mem_alternativesDemands read inDemands) with
      ⟨other, inDemand⟩
    refine ⟨demand, inDemands, other, inDemand, ?_⟩
    rw [onField other (inside demand inDemands other inDemand), onField clause member]

/-! ## Demands of whole queries -/

theorem outerDemands_of_ofMember {occur : Occur} {query : Query} {clause : Clause}
    (read : Clause.ofMember occur query = .ok clause) :
    outerDemands occur query = [[clause]] := by
  rcases Clause.yields_of_ofMember read with ⟨leaf, rfl, _⟩
  rw [outerDemands, read]
  · rfl
  · intro _ impossible
    cases impossible

theorem met_singleton {clause : Clause} :
    Met valuation [[clause]] ↔ clause.Holds valuation := by
  simp [Met]

/-- A member of the outermost group is never an option, and demands what its clauses do. -/
theorem demands_iff_met_outer {occur : Occur} {query : Query}
    (read : Clause.ofOuterMember occur query = .ok clauses) :
    occur ≠ .should ∧
      (occur.Demands (query.Holds valuation) ↔ Met valuation (outerDemands occur query)) := by
  rcases Clause.ofOuterMember_cases read with ⟨rfl, members, rfl, found⟩ | ⟨clause, found, rfl⟩
  · exact ⟨Occur.noConfusion, holds_iff_met_alternatives found⟩
  · rw [outerDemands_of_ofMember found, met_singleton]
    exact Clause.demands_iff_of_ofMember found

theorem covers_outer {occur : Occur} {query : Query}
    (read : Clause.ofOuterMember occur query = .ok clauses) :
    Covers (outerDemands occur query) clauses := by
  rcases Clause.ofOuterMember_cases read with ⟨_, members, rfl, found⟩ | ⟨clause, found, rfl⟩
  · exact covers_alternatives found
  · rw [outerDemands_of_ofMember found]
    exact Covers.singleton clause

/-- A query that is a list of clauses holds exactly where its demands are met. -/
theorem holds_iff_met_demands {query : Query} (read : Clause.ofQuery query = .ok clauses) :
    query.Holds valuation ↔ Met valuation query.demands := by
  cases query with
  | group members =>
    rcases Clause.ofQuery_group_eq_ok_iff.1 read with ⟨parts, each, _⟩
    have noOption : needsOption members = false := by
      rw [Bool.eq_false_iff, ne_eq, needsOption_iff]
      rintro ⟨⟨member, present, should⟩, _⟩
      rcases exists_mem_left each.flip present with ⟨part, _, found⟩
      exact (@demands_iff_met_outer valuation _ _ _ found).1 should
    have all : allDemandsHold valuation members ↔ ∀ member ∈ members,
        Met valuation (outerDemands member.1 member.2) := by
      rw [allDemandsHold_iff]
      refine forall₂_congr fun member present => ?_
      rcases exists_mem_left each.flip present with ⟨part, _, found⟩
      exact (demands_iff_met_outer found).2
    rw [Query.Holds, noOption, all, Query.demands]
    simp only [Met, List.mem_flatMap, Bool.false_eq_true, false_implies, and_true]
    constructor
    · rintro each demand ⟨member, present, inside⟩
      exact each member present demand inside
    · intro each member present demand inside
      exact each demand ⟨member, present, inside⟩
  | leaf content => exact (@demands_iff_met_outer valuation _ .must (.leaf content) read).2
  | boosted inner boost =>
    exact (@demands_iff_met_outer valuation _ .must (.boosted inner boost) read).2

/-- The demands of a query cover its clauses. -/
theorem covers_demands {query : Query} (read : Clause.ofQuery query = .ok clauses) :
    Covers query.demands clauses := by
  cases query with
  | group members =>
    rcases Clause.ofQuery_group_eq_ok_iff.1 read with ⟨parts, each, rfl⟩
    clear read
    rw [Query.demands]
    induction each with
    | nil => exact Covers.nil
    | cons head _ ih => exact (covers_outer head).append ih
  | leaf content => exact @covers_outer _ .must (.leaf content) read
  | boosted inner boost => exact @covers_outer _ .must (.boosted inner boost) read

end

end AlarmQuery
