import AlarmQuery.Proofs.Clause.Same
import AlarmQuery.Proofs.Query.Leaves

/-!
# Which queries are lists of clauses

The shape of such a query is said here without reading it: a single condition, or a group of
conditions that are demanded or excluded and of demanded groups of alternatives on one field.  A
query of this shape gives one clause for each of its leaves, from left to right, and any other is
turned down.
-/

namespace AlarmQuery

/-! ## Conditions and the contents that they give -/

namespace Condition

/-- The condition can be the content of a clause: it is an exact text, a pattern of which no
wildcard character is escaped, a beginning without such characters, or a range up to both its
bounds. -/
def Editable : Condition → Prop
  | .term _ => True
  | .wildcard pattern => .literal '*' ∉ glyphs pattern ∧ .literal '?' ∉ glyphs pattern
  | .startsWith beginning => '*' ∉ beginning ∧ '?' ∉ beginning
  | .range lower upper lowerInclusive upperInclusive =>
    (lower.isSome ∧ upper.isSome) ∧ lowerInclusive = true ∧ upperInclusive = true
  | .regexp _ => False
  | .fuzzy .. => False
  | .everything => False

instance (condition : Condition) : Decidable condition.Editable :=
  match condition with
  | .term _ => inferInstanceAs (Decidable True)
  | .wildcard _ => inferInstanceAs (Decidable (_ ∧ _))
  | .startsWith _ => inferInstanceAs (Decidable (_ ∧ _))
  | .range .. => inferInstanceAs (Decidable (_ ∧ _))
  | .regexp _ => inferInstanceAs (Decidable False)
  | .fuzzy .. => inferInstanceAs (Decidable False)
  | .everything => inferInstanceAs (Decidable False)

/-- The content that a condition gives: a term and an upper bound, and whether wildcard characters
stand for themselves. -/
inductive Gives : Condition → Text → Text → Bool → Prop
  | term (text : Text) : Gives (.term text) text [] true
  /-- A pattern loses its backslashes. -/
  | wildcard (pattern : Text) :
      Gives (.wildcard pattern) ((glyphs pattern).map Glyph.char) [] false
  | startsWith (beginning : Text) :
      Gives (.startsWith beginning) (beginning ++ ['*']) [] false
  | range (lower upper : Text) :
      Gives (.range (some lower) (some upper) true true) lower upper false

end Condition

theorem Condition.editable_wildcard_iff {pattern : Text} :
    (Condition.wildcard pattern).Editable ↔
      ∀ glyph ∈ glyphs pattern, glyph.isLiteralWildcard = false := by
  constructor
  · rintro ⟨noStar, noMark⟩ glyph member
    rw [← Bool.not_eq_true]
    intro literal
    cases glyph with
    | anyOne => cases literal
    | anyMany => cases literal
    | literal c =>
      rcases List.mem_pair.1 (List.contains_iff_mem.1 literal) with rfl | rfl
      · exact noStar member
      · exact noMark member
  · intro live
    exact ⟨fun star => Bool.noConfusion (live _ star), fun mark => Bool.noConfusion (live _ mark)⟩

/-- The leaf can be a clause where it is demanded or excluded. -/
def Convertible (occur : Occur) (leaf : Leaf) : Prop :=
  occur ≠ .should ∧ leaf.condition.Editable

instance (occur : Occur) (leaf : Leaf) : Decidable (Convertible occur leaf) :=
  inferInstanceAs (Decidable (_ ∧ _))

/-- The clause says what the leaf does, and in the same way. -/
structure Converts (occur : Occur) (leaf : Leaf) (clause : Clause) : Prop where
  negation : clause.negation.occur = occur
  field : clause.field = leaf.field
  content : leaf.condition.Gives clause.term clause.upTo clause.literal

/-! ## Shapes -/

mutual

/-- The leaves of a query from left to right, each with how it takes part in the group around it.
A leaf that no group is around takes part as the query does. -/
def Query.occurrences (occur : Occur) : Query → List (Occur × Leaf)
  | .leaf content => [(occur, content)]
  | .group members => memberOccurrences members
  | .boosted inner _ => inner.occurrences occur

/-- The leaves of the members of a group, each with how it takes part. -/
def memberOccurrences : List (Occur × Query) → List (Occur × Leaf)
  | [] => []
  | (occur, query) :: members => query.occurrences occur ++ memberOccurrences members

end

mutual

theorem map_snd_occurrences (occur : Occur) : (query : Query) →
    (query.occurrences occur).map Prod.snd = query.leaves
  | .leaf _ => rfl
  | .group members => map_snd_memberOccurrences members
  | .boosted inner _ => map_snd_occurrences occur inner

theorem map_snd_memberOccurrences : (members : List (Occur × Query)) →
    (memberOccurrences members).map Prod.snd = memberLeaves members
  | [] => rfl
  | (occur, query) :: members => by
    rw [memberOccurrences, memberLeaves, List.map_append, map_snd_occurrences occur query,
      map_snd_memberOccurrences members]

end

namespace Query

/-- An alternative is a single clause, or an optional group of one. -/
def IsAlternative (occur : Occur) : Query → Prop
  | .leaf content => Convertible occur content
  | .group [(inner, .leaf content)] => occur = .should ∧ Convertible inner content
  | _ => False

instance (occur : Occur) (query : Query) : Decidable (query.IsAlternative occur) :=
  match query with
  | .leaf content => inferInstanceAs (Decidable (Convertible occur content))
  | .group [(inner, .leaf content)] =>
    inferInstanceAs (Decidable (occur = .should ∧ Convertible inner content))
  | .group [] => inferInstanceAs (Decidable False)
  | .group ((_, .leaf _) :: _ :: _) => inferInstanceAs (Decidable False)
  | .group ((_, .group _) :: _) => inferInstanceAs (Decidable False)
  | .group ((_, .boosted ..) :: _) => inferInstanceAs (Decidable False)
  | .boosted .. => inferInstanceAs (Decidable False)

/-- A member of the outermost group is a single clause, or a demanded group of alternatives on one
field. -/
def IsOuterMember (occur : Occur) : Query → Prop
  | .leaf content => Convertible occur content
  | .group members => occur = .must ∧ (∀ member ∈ members, member.2.IsAlternative member.1) ∧
      ∀ one ∈ memberLeaves members, ∀ two ∈ memberLeaves members, one.field = two.field
  | .boosted .. => False

instance (occur : Occur) (query : Query) : Decidable (query.IsOuterMember occur) :=
  match query with
  | .leaf content => inferInstanceAs (Decidable (Convertible occur content))
  | .group _ => inferInstanceAs (Decidable (_ ∧ _ ∧ _))
  | .boosted .. => inferInstanceAs (Decidable False)

/-- The query has the shape of a list of clauses. -/
def IsClauseList : Query → Prop
  | .leaf content => Convertible .must content
  | .group members => ∀ member ∈ members, member.2.IsOuterMember member.1
  | .boosted .. => False

instance (query : Query) : Decidable query.IsClauseList :=
  match query with
  | .leaf content => inferInstanceAs (Decidable (Convertible .must content))
  | .group members =>
    inferInstanceAs (Decidable (∀ member ∈ members, member.2.IsOuterMember member.1))
  | .boosted .. => inferInstanceAs (Decidable False)

end Query

/-- The clauses say what the leaves do, one by one. -/
abbrev ConvertsAll (leaves : List (Occur × Leaf)) (clauses : List Clause) : Prop :=
  List.Forall₂ (fun leaf clause => Converts leaf.1 leaf.2 clause) leaves clauses

/-- A traversal that can succeed at every item succeeds. -/
theorem exists_mapM_eq_ok {α β ε : Type} {step : α → Except ε β} {items : List α}
    (each : ∀ item ∈ items, ∃ result, step item = .ok result) :
    ∃ results, items.mapM step = .ok results := by
  induction items with
  | nil => exact ⟨[], rfl⟩
  | cons item items ih =>
    rcases each item List.mem_cons_self with ⟨result, head⟩
    rcases ih fun other member => each other (List.mem_cons_of_mem _ member) with ⟨results, tail⟩
    exact ⟨result :: results, mapM_eq_ok_iff.2 (.cons head (mapM_eq_ok_iff.1 tail))⟩

namespace Clause

/-! ## What is read has the shape -/

theorem converts_of_ofLeaf {negation : Negation} {leaf : Leaf} {clause : Clause}
    (read : ofLeaf negation leaf = .ok clause) :
    leaf.condition.Editable ∧ Converts negation.occur leaf clause := by
  rcases leaf with ⟨field, condition⟩
  cases condition with
  | term text =>
    cases read
    exact ⟨trivial, rfl, rfl, .term text⟩
  | wildcard pattern =>
    simp only [ofLeaf] at read
    split at read
    · cases read
    · rename_i term live
      cases read
      rcases livePattern?_eq_some_iff.1 live with ⟨each, rfl⟩
      have editable := Condition.editable_wildcard_iff.2 each
      exact ⟨editable, rfl, rfl, .wildcard pattern⟩
  | startsWith beginning =>
    simp only [ofLeaf] at read
    split at read
    · cases read
    · rename_i plain
      cases read
      have editable := any_isWildcard_eq_false_iff.1 (Bool.eq_false_iff.2 plain)
      exact ⟨editable, rfl, rfl, .startsWith beginning⟩
  | range lower upper lowerInclusive upperInclusive =>
    simp only [ofLeaf] at read
    split at read
    · rename_i inclusive
      rw [Bool.and_eq_true] at inclusive
      rcases inclusive with ⟨rfl, rfl⟩
      split at read
      · rename_i lower upper
        cases read
        exact ⟨⟨⟨rfl, rfl⟩, rfl, rfl⟩, rfl, rfl, .range lower upper⟩
      · cases read
    · cases read
  | regexp expression => cases read
  | fuzzy text slop => cases read
  | everything => cases read

theorem converts_of_ofMember {occur : Occur} {query : Query} {clause : Clause}
    (read : ofMember occur query = .ok clause) :
    ∃ leaf, query = .leaf leaf ∧ Convertible occur leaf ∧ Converts occur leaf clause := by
  rw [ofMember.eq_def] at read
  split at read
  · cases read
  · rename_i negation found
    have occurs : occur = negation.occur := by
      cases occur <;> cases found
      · rfl
      · rfl
    split at read
    · rename_i leaf
      rcases converts_of_ofLeaf read with ⟨editable, converts⟩
      subst occurs
      refine ⟨leaf, rfl, ⟨?_, editable⟩, converts⟩
      cases negation <;> exact Occur.noConfusion
    · cases read

theorem converts_of_ofAlternative {occur : Occur} {query : Query} {clause : Clause}
    (read : ofAlternative occur query = .ok clause) :
    query.IsAlternative occur ∧ ConvertsAll (query.occurrences occur) [clause] := by
  rw [ofAlternative.eq_def] at read
  split at read
  · split at read
    · cases read
    · rename_i optional
      split at read
      · rcases converts_of_ofMember read with ⟨leaf, rfl, convertible, converts⟩
        exact ⟨⟨not_not.1 optional, convertible⟩, .cons converts .nil⟩
      · cases read
  · rcases converts_of_ofMember read with ⟨leaf, rfl, convertible, converts⟩
    exact ⟨convertible, .cons converts .nil⟩

theorem converts_of_ofAlternatives {members : List (Occur × Query)} {clauses : List Clause}
    (each : List.Forall₂ (fun member clause => ofAlternative member.1 member.2 = .ok clause)
      members clauses) :
    (∀ member ∈ members, member.2.IsAlternative member.1) ∧
      ConvertsAll (memberOccurrences members) clauses := by
  induction each with
  | nil => exact ⟨fun _ absent => absurd absent List.not_mem_nil, .nil⟩
  | cons head _ ih =>
    rcases converts_of_ofAlternative head with ⟨alternative, converts⟩
    exact ⟨List.forall_mem_cons.2 ⟨alternative, ih.1⟩, List.rel_append converts ih.2⟩

/-- The leaves that are converted have the fields of their clauses. -/
theorem field_eq_of_convertsAll {members : List (Occur × Query)} {clauses : List Clause}
    (converts : ConvertsAll (memberOccurrences members) clauses) :
    clauses.map Clause.field = (memberLeaves members).map Leaf.field := by
  rw [← map_snd_memberOccurrences, List.map_map, eq_comm, ← List.forall₂_eq_eq_eq,
    List.forall₂_map_left_iff, List.forall₂_map_right_iff]
  exact converts.imp fun _ _ one => one.field.symm

theorem converts_of_ofOuterMember {occur : Occur} {query : Query} {clauses : List Clause}
    (read : ofOuterMember occur query = .ok clauses) :
    query.IsOuterMember occur ∧ ConvertsAll (query.occurrences occur) clauses := by
  rcases ofOuterMember_cases read with ⟨rfl, members, rfl, alternatives⟩ | ⟨clause, found, rfl⟩
  · rcases ofAlternatives_eq_ok_iff.1 alternatives with ⟨each, field, same⟩
    rcases converts_of_ofAlternatives each with ⟨shapes, converts⟩
    have fields : ∀ leaf ∈ memberLeaves members, leaf.field = field := by
      have named : ∀ name ∈ clauses.map Clause.field, name = field := List.forall_mem_map.2 same
      rw [field_eq_of_convertsAll converts] at named
      exact List.forall_mem_map.1 named
    refine ⟨⟨rfl, shapes, ?_⟩, converts⟩
    exact fun one member two memberToo => (fields one member).trans (fields two memberToo).symm
  · rcases converts_of_ofMember found with ⟨leaf, rfl, convertible, converts⟩
    exact ⟨convertible, .cons converts .nil⟩

theorem converts_of_ofQuery {query : Query} {clauses : List Clause}
    (read : ofQuery query = .ok clauses) :
    query.IsClauseList ∧ ConvertsAll (query.occurrences .must) clauses := by
  cases query with
  | leaf leaf => exact @converts_of_ofOuterMember .must (.leaf leaf) _ read
  | boosted inner boost =>
    exact absurd (@converts_of_ofOuterMember .must (.boosted inner boost) _ read).1 not_false
  | group members =>
    rcases ofQuery_group_eq_ok_iff.1 read with ⟨parts, each, rfl⟩
    clear read
    induction each with
    | nil => exact ⟨fun _ absent => absurd absent List.not_mem_nil, .nil⟩
    | cons head _ ih =>
      rcases converts_of_ofOuterMember head with ⟨outer, converts⟩
      exact ⟨List.forall_mem_cons.2 ⟨outer, ih.1⟩, List.rel_append converts ih.2⟩

/-! ## What has the shape is read -/

theorem exists_ofMember {occur : Occur} {leaf : Leaf} (convertible : Convertible occur leaf) :
    ∃ clause, ofMember occur (.leaf leaf) = .ok clause := by
  rcases convertible with ⟨notOptional, editable⟩
  have converted (negation : Negation) : ∃ clause, ofLeaf negation leaf = .ok clause := by
    rcases leaf with ⟨field, condition⟩
    cases condition with
    | term text => exact ⟨_, rfl⟩
    | wildcard pattern =>
      have live := livePattern?_eq_some_iff.2 ⟨Condition.editable_wildcard_iff.1 editable, rfl⟩
      simp only [ofLeaf, live]
      exact ⟨_, rfl⟩
    | startsWith beginning =>
      have plain := any_isWildcard_eq_false_iff.2 editable
      simp only [ofLeaf, plain, Bool.false_eq_true, if_false]
      exact ⟨_, rfl⟩
    | range lower upper lowerInclusive upperInclusive =>
      rcases editable with ⟨⟨lowerSome, upperSome⟩, rfl, rfl⟩
      rcases Option.isSome_iff_exists.1 lowerSome with ⟨lower, rfl⟩
      rcases Option.isSome_iff_exists.1 upperSome with ⟨upper, rfl⟩
      exact ⟨_, rfl⟩
    | regexp expression => exact absurd editable not_false
    | fuzzy text slop => exact absurd editable not_false
    | everything => exact absurd editable not_false
  cases occur with
  | must => exact converted .is
  | mustNot => exact converted .isNot
  | should => exact absurd rfl notOptional

theorem exists_ofAlternative {occur : Occur} {query : Query} (shape : query.IsAlternative occur) :
    ∃ clause, ofAlternative occur query = .ok clause := by
  rw [Query.IsAlternative.eq_def] at shape
  split at shape
  · exact exists_ofMember shape
  · rcases shape with ⟨rfl, convertible⟩
    exact exists_ofMember convertible
  · exact absurd shape not_false

theorem exists_ofAlternatives {members : List (Occur × Query)}
    (shapes : ∀ member ∈ members, member.2.IsAlternative member.1)
    (fields : ∀ one ∈ memberLeaves members, ∀ two ∈ memberLeaves members, one.field = two.field) :
    ∃ clauses, ofAlternatives members = .ok clauses := by
  rcases exists_mapM_eq_ok fun member inside => exists_ofAlternative (shapes member inside) with
    ⟨clauses, read⟩
  have each := mapM_eq_ok_iff.1 read
  refine ⟨clauses, ofAlternatives_eq_ok_iff.2 ⟨each, ?_⟩⟩
  have named := field_eq_of_convertsAll (converts_of_ofAlternatives each).2
  cases clauses with
  | nil => exact ⟨[], fun _ absent => absurd absent List.not_mem_nil⟩
  | cons first others =>
    refine ⟨first.field, fun clause member => ?_⟩
    have leaf (clause : Clause) (member : clause ∈ first :: others) :
        ∃ leaf ∈ memberLeaves members, leaf.field = clause.field := by
      have inside := List.mem_map_of_mem (f := Clause.field) member
      rw [named] at inside
      exact List.mem_map.1 inside
    rcases leaf clause member with ⟨one, oneInside, oneField⟩
    rcases leaf first List.mem_cons_self with ⟨two, twoInside, twoField⟩
    rw [← oneField, ← twoField]
    exact fields one oneInside two twoInside

theorem exists_ofOuterMember {occur : Occur} {query : Query} (shape : query.IsOuterMember occur) :
    ∃ clauses, ofOuterMember occur query = .ok clauses := by
  cases query with
  | leaf leaf =>
    rcases exists_ofMember shape with ⟨clause, read⟩
    refine ⟨[clause], ?_⟩
    simp only [ofOuterMember, read]
    rfl
  | group members =>
    rcases shape with ⟨rfl, shapes, fields⟩
    exact exists_ofAlternatives shapes fields
  | boosted inner boost => exact absurd shape not_false

theorem exists_ofQuery {query : Query} (shape : query.IsClauseList) :
    ∃ clauses, ofQuery query = .ok clauses := by
  cases query with
  | leaf leaf => exact @exists_ofOuterMember .must (.leaf leaf) shape
  | group members =>
    rcases exists_mapM_eq_ok fun member inside => exists_ofOuterMember (shape member inside) with
      ⟨parts, read⟩
    exact ⟨parts.flatten, ofQuery_group_eq_ok_iff.2 ⟨parts, mapM_eq_ok_iff.1 read, rfl⟩⟩
  | boosted inner boost => exact absurd shape not_false

/-- A text that is a query and not blank is a list of clauses exactly when the query has the shape
of one.  The clauses then say what the leaves of the query do, one by one from the left, and where
there are none the query is turned down as one that is not supported. -/
theorem exists_parseList_iff {text field : Text} {query : Query} (written : ¬ text.IsBlank)
    (parsed : Query.parse text field = .ok query) :
    ((∃ clauses, parseList text field = .ok clauses) ↔ query.IsClauseList) ∧
      (∀ clauses, parseList text field = .ok clauses →
        ConvertsAll (query.occurrences .must) clauses) ∧
      (¬ query.IsClauseList →
        ∃ obstacle, parseList text field = .error (.unsupported obstacle)) := by
  have notBlank : text.all isBlank = false :=
    Bool.eq_false_iff.2 fun blank => written (List.all_eq_true.1 blank)
  have read : parseList text field = (ofQuery query).mapError .unsupported := by
    rw [parseList, notBlank, if_neg Bool.false_ne_true, parsed]
  rw [read]
  cases found : ofQuery query with
  | error obstacle =>
    have noShape : ¬ query.IsClauseList := by
      intro shape
      rcases exists_ofQuery shape with ⟨clauses, impossible⟩
      rw [found] at impossible
      cases impossible
    refine ⟨⟨?_, fun shape => absurd shape noShape⟩, ?_, fun _ => ⟨obstacle, rfl⟩⟩
    · rintro ⟨clauses, impossible⟩
      cases impossible
    · intro clauses impossible
      cases impossible
  | ok clauses =>
    rcases converts_of_ofQuery found with ⟨shape, converts⟩
    refine ⟨⟨fun _ => shape, fun _ => ⟨clauses, rfl⟩⟩, ?_, fun noShape => absurd shape noShape⟩
    intro others same
    rwa [← Except.ok.inj same]

/-- An excluded beginning stands beside two alternatives, of which one is in parentheses and the
other is an excluded range.  Alternatives that are not demanded are no clauses. -/
theorem exists_parseList_of_mixed_alternatives :
    (∃ clauses, parseList "-g:b* +((+f:a) -f:[1 TO 2])".toList ['d'] = .ok clauses ∧
      ConvertsAll [(.mustNot, ⟨['g'], .startsWith ['b']⟩), (.must, ⟨['f'], .term ['a']⟩),
        (.mustNot, ⟨['f'], .range (some ['1']) (some ['2']) true true⟩)] clauses) ∧
    ∃ obstacle, parseList "+(f:a f:b)".toList ['d'] = .error (.unsupported obstacle) := by
  constructor
  · have read : ((Query.parse "-g:b* +((+f:a) -f:[1 TO 2])".toList ['d']).toOption.map fun query =>
        (decide query.IsClauseList, query.occurrences .must)) = some (true,
          [(.mustNot, ⟨['g'], .startsWith ['b']⟩), (.must, ⟨['f'], .term ['a']⟩),
            (.mustNot, ⟨['f'], .range (some ['1']) (some ['2']) true true⟩)]) := by
      decide +kernel
    rcases Option.map_eq_some_iff.1 read with ⟨query, parsed, shape⟩
    rw [Prod.mk.injEq, decide_eq_true_eq] at shape
    have written : ¬ Text.IsBlank "-g:b* +((+f:a) -f:[1 TO 2])".toList :=
      fun blank => absurd (blank 'g' (by decide)) (by decide)
    rcases exists_parseList_iff written (eq_ok_of_toOption parsed) with ⟨accepted, converts, _⟩
    rcases accepted.2 shape.1 with ⟨clauses, found⟩
    exact ⟨clauses, found, shape.2 ▸ converts clauses found⟩
  · have read : ((Query.parse "+(f:a f:b)".toList ['d']).toOption.map fun query =>
        decide query.IsClauseList) = some false := by
      decide +kernel
    rcases Option.map_eq_some_iff.1 read with ⟨query, parsed, noShape⟩
    have written : ¬ Text.IsBlank "+(f:a f:b)".toList :=
      fun blank => absurd (blank 'f' (by decide)) (by decide)
    have rejected := (exists_parseList_iff written (eq_ok_of_toOption parsed)).2.2
    exact rejected (of_decide_eq_false noShape)

end Clause

end AlarmQuery
