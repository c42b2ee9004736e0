import AlarmQuery.Proofs.Clause.Faithful
import AlarmQuery.Proofs.Query.Meaning

/-!
# What a list of clauses means

A list of clauses holds where on each of its fields a clause holds.  A query that is written anew
from its clauses therefore never demands more than before.  It demands less where one field was
the subject of several demands, and `Kept` says of which demands this is true.
-/

namespace AlarmQuery

namespace Clause

/-! ## Clauses that are the same -/

/-- Clauses are the same when their negations and what they say without them are. -/
theorem same_iff_positive {first second : Clause} :
    Same first second ↔ first.negation = second.negation ∧ Same first.positive second.positive := by
  rw [same_iff, same_iff]
  constructor
  · rintro ⟨negation, content⟩
    exact ⟨negation, rfl, content⟩
  · rintro ⟨negation, _, content⟩
    exact ⟨negation, content⟩

theorem holds_of_same {valuation : Valuation} {first second : Clause} (same : Same first second) :
    first.Holds valuation ↔ second.Holds valuation := by
  rcases same_iff_positive.1 same with ⟨negation, positives⟩
  have meets := valuation.respects positives
  rw [Holds, Holds, negation]
  cases second.negation with
  | is => exact meets
  | isNot => exact not_congr meets

/-! ## Written lists -/

/-- Each field of a list has a clause that holds. -/
def ListHolds (valuation : Valuation) (clauses : List Clause) : Prop :=
  ∀ field ∈ fields clauses, ∃ clause ∈ onField field clauses, clause.Holds valuation

theorem memberClauses_options (optional : Bool) {group : List Clause}
    (listable : ∀ clause ∈ group, ¬ clause.MatchesAll) :
    memberClauses optional ((group.map query).map fun query => (.should, query)) =
      if optional then group.map asRead else [] := by
  rw [memberClauses, List.map_map, List.filterMap_map]
  cases optional with
  | true =>
    rw [if_pos rfl, ← List.filterMap_eq_map]
    apply List.filterMap_congr
    intro clause member
    simp only [Function.comp_apply, decide_true, if_true,
      ofAlternative_query (listable clause member)]
    rfl
  | false =>
    rw [if_neg Bool.false_ne_true, List.filterMap_eq_nil_iff]
    intro clause _
    simp

theorem outerDemands_alternatives {group : List Clause} (nonempty : group ≠ [])
    (listable : ∀ clause ∈ group, ¬ clause.MatchesAll) :
    outerDemands .must (alternatives (group.map query)) = [group.map asRead] := by
  have inGroup : group.length ≠ 1 → alternatives (group.map query) =
      .group ((group.map query).map fun query => (.should, query)) := by
    intro several
    rcases group with _ | ⟨first, _ | ⟨second, others⟩⟩
    · rfl
    · exact absurd rfl several
    · rfl
  by_cases single : group.length = 1
  · rcases List.length_eq_one_iff.1 single with ⟨clause, rfl⟩
    show alternativesDemands [(clause.negation.occur, .leaf clause.leaf)] = [[clause.asRead]]
    have found := ofAlternative_leaf (listable clause List.mem_cons_self)
    have noOption : clause.negation.occur ≠ .should := by
      cases clause.negation <;> exact Occur.noConfusion
    simp [alternativesDemands, memberClauses, needsOption, noOption, found, Except.toOption]
  · have needed : needsOption ((group.map query).map fun query => (.should, query)) = true := by
      rcases List.exists_mem_of_ne_nil group nonempty with ⟨clause, member⟩
      rw [needsOption_iff]
      refine ⟨⟨(.should, clause.query), ?_, rfl⟩, ?_⟩
      · exact List.mem_map_of_mem (List.mem_map_of_mem member)
      · intro option member
        rcases List.mem_map.1 member with ⟨_, _, rfl⟩
        exact Occur.noConfusion
    rw [inGroup single, outerDemands, alternativesDemands, memberClauses_options _ listable,
      memberClauses_options _ listable, if_pos needed]
    rfl

/-- A written list makes one demand for each field. -/
theorem demands_listQuery {clauses : List Clause}
    (listable : ∀ clause ∈ clauses, ¬ clause.MatchesAll) :
    (listQuery clauses).demands = (groups clauses).map (List.map asRead) := by
  rw [listQuery, Query.demands, List.flatMap_map, ← List.flatMap_pure_eq_map]
  apply List.flatMap_congr
  intro group member
  apply outerDemands_alternatives (ne_nil_of_mem_groups member)
  exact fun clause inside => listable clause (mem_of_mem_groups member inside)

/-- A written list of supported clauses holds where on each field one of them does. -/
theorem holds_listQuery_iff {valuation : Valuation} {clauses : List Clause}
    (supported : ∀ clause ∈ clauses, clause.Supported) :
    (listQuery clauses).Holds valuation ↔ ListHolds valuation clauses := by
  have listable : ∀ clause ∈ clauses, ¬ clause.MatchesAll := fun clause member =>
    (supported clause member).listable
  rw [holds_iff_met_demands (ofQuery_listQuery listable), demands_listQuery listable, Met, groups,
    List.map_map, List.forall_mem_map]
  refine forall₂_congr fun field _ => ?_
  simp only [Function.comp_apply, List.mem_map, exists_exists_and_eq_and]
  refine exists_congr fun clause => and_congr_right fun inside => ?_
  exact holds_of_same (supported clause (mem_onField.1 inside).1).same_asRead

/-- Supported clauses are written as a query that is read, whatever field it is about, and it holds
where for every field which they name one of the clauses on it holds. -/
theorem holds_toQuery_iff {clauses : List Clause} (nonempty : clauses ≠ [])
    (supported : ∀ clause ∈ clauses, clause.Supported) :
    ∃ text query, toQuery clauses = .ok text ∧
      ∀ field, Query.parse text field = .ok query ∧
        ∀ valuation, query.Holds valuation ↔ ∀ name ∈ clauses.map Clause.field,
          ∃ clause ∈ clauses, clause.field = name ∧ clause.Holds valuation := by
  refine ⟨listText clauses, listQuery clauses, ?_, fun field => ⟨?_, fun valuation => ?_⟩⟩
  · exact toQuery_eq_ok_iff.2 ⟨fun clause member => (supported clause member).named, rfl⟩
  · exact parse_listText nonempty (fun clause member => (supported clause member).toReadable) field
  · rw [holds_listQuery_iff supported, ListHolds]
    simp only [mem_fields, mem_onField, List.mem_map, and_assoc]

/-- Two clauses on one field are alternatives, and an excluded range on another field that stands
between them in the list is a demand of its own. -/
theorem holds_toQuery_of_range_between :
    ∃ query, Query.parse "+((+pv:a\\*) (+pv:b?)) +((-n:[\"1\" TO \"2\"]))".toList ['d'] =
        .ok query ∧
      ∀ valuation, query.Holds valuation ↔
        (valuation.Meets ⟨.is, ['p', 'v'], ['a', '*'], [], true⟩ ∨
          valuation.Meets ⟨.is, ['p', 'v'], ['b', '?'], [], false⟩) ∧
        ¬ valuation.Meets ⟨.is, ['n'], ['1'], ['2'], false⟩ := by
  let clauses : List Clause := [⟨.is, ['p', 'v'], ['a', '*'], [], true⟩,
    ⟨.isNot, ['n'], ['1'], ['2'], false⟩, ⟨.is, ['p', 'v'], ['b', '?'], [], false⟩]
  have written : toQuery clauses =
      .ok "+((+pv:a\\*) (+pv:b?)) +((-n:[\"1\" TO \"2\"]))".toList := by
    cbv
  rcases holds_toQuery_iff (List.cons_ne_nil _ _) (by decide : ∀ clause ∈ clauses, clause.Supported)
    with ⟨text, query, isWritten, read⟩
  rcases read ['d'] with ⟨parsed, holds⟩
  rw [Except.ok.inj (isWritten.symm.trans written)] at parsed
  refine ⟨query, parsed, fun valuation => (holds valuation).trans ?_⟩
  simp +contextual [Holds, positive]

/-! ## Demands that are kept -/

/-- One of the clauses holds exactly where the other one does not. -/
def Opposite (one two : Clause) : Prop :=
  one.negation ≠ two.negation ∧ Same one.positive two.positive

/-- The demand is always met, or has all the clauses on its field. -/
def Kept (clauses demand : List Clause) : Prop :=
  (∃ one ∈ demand, ∃ two ∈ demand, Opposite one two) ∨
    ∀ clause ∈ clauses, (∃ member ∈ demand, member.field = clause.field) →
      ∃ member ∈ demand, Same clause member

instance (one two : Clause) : Decidable (Opposite one two) :=
  inferInstanceAs (Decidable (_ ∧ _))

instance (clauses demand : List Clause) : Decidable (Kept clauses demand) :=
  inferInstanceAs (Decidable (_ ∨ _))

theorem holds_or_holds_of_opposite {one two : Clause} (opposite : Opposite one two)
    (valuation : Valuation) : one.Holds valuation ∨ two.Holds valuation := by
  rcases opposite with ⟨differ, same⟩
  have meets := valuation.respects same
  rw [Holds, Holds]
  cases first : one.negation with
  | is =>
    cases second : two.negation with
    | is => exact absurd (first.trans second.symm) differ
    | isNot =>
      rw [meets]
      exact Classical.em _
  | isNot =>
    cases second : two.negation with
    | is =>
      rw [meets]
      exact (Classical.em _).symm
    | isNot => exact absurd (first.trans second.symm) differ

section

variable {valuation : Valuation} {clauses : List Clause} {demands : List (List Clause)}

/-- Where the demands are met, each field has a clause that holds. -/
theorem listHolds_of_met (covers : Covers demands clauses) (met : Met valuation demands) :
    ListHolds valuation clauses := by
  intro field present
  rcases mem_fields.1 present with ⟨clause, member, rfl⟩
  rcases covers.reaches clause member with ⟨demand, inDemands, reached, inDemand, onField⟩
  rcases covers.oneField demand inDemands with ⟨field, all⟩
  rcases met demand inDemands with ⟨other, inside, holds⟩
  refine ⟨other, mem_onField.2 ⟨covers.inside demand inDemands other inside, ?_⟩, holds⟩
  rw [all other inside, ← all reached inDemand, onField]

/-- Where each field has a clause that holds, the demands that are kept are met. -/
theorem met_of_kept (covers : Covers demands clauses)
    (kept : ∀ demand ∈ demands, Kept clauses demand) (holds : ListHolds valuation clauses) :
    Met valuation demands := by
  intro demand inDemands
  rcases kept demand inDemands with ⟨one, oneInside, two, twoInside, opposite⟩ | all
  · rcases holds_or_holds_of_opposite opposite valuation with first | second
    · exact ⟨one, oneInside, first⟩
    · exact ⟨two, twoInside, second⟩
  · rcases List.exists_mem_of_ne_nil demand (covers.nonempty demand inDemands) with ⟨member, inside⟩
    have inClauses := covers.inside demand inDemands member inside
    rcases holds member.field (mem_fields.2 ⟨member, inClauses, rfl⟩) with ⟨clause, onField, met⟩
    rcases mem_onField.1 onField with ⟨present, sameField⟩
    rcases all clause present ⟨member, inside, sameField.symm⟩ with ⟨other, inDemand, same⟩
    exact ⟨other, inDemand, (holds_of_same same).1 met⟩

end

/-! ## A valuation that tells a demand from a list -/

section

variable {clauses demand : List Clause} {apart : Clause}

/-- On the field of `apart` this clause holds and nothing of the demand does.  On any other field
the first clause holds. -/
def separating (clauses demand : List Clause) (apart : Clause) : Valuation where
  Meets clause :=
    if clause.field = apart.field then
      (∃ member ∈ demand, member.negation = .isNot ∧ Same member.positive clause) ∨
        (apart.negation = .is ∧ Same apart.positive clause)
    else ∃ first, (onField clause.field clauses).head? = some first ∧ first.negation = .is
  respects := by
    intro first second same
    have through {other : Clause} : Same other first ↔ Same other second :=
      ⟨fun one => one.trans same, fun one => one.trans same.symm⟩
    simp only [through, (same_iff.1 same).2.1]

theorem holds_apart (other : ∀ member ∈ demand, ¬ Same apart member) :
    apart.Holds (separating clauses demand apart) := by
  have meets : (separating clauses demand apart).Meets apart.positive ↔
      (∃ member ∈ demand, member.negation = .isNot ∧ Same member.positive apart.positive) ∨
        (apart.negation = .is ∧ Same apart.positive apart.positive) :=
    iff_of_eq (if_pos rfl)
  rw [Holds]
  cases negation : apart.negation with
  | is => exact meets.2 (Or.inr ⟨negation, Same.refl _⟩)
  | isNot =>
    intro met
    rcases meets.1 met with ⟨member, inside, negated, same⟩ | ⟨positive, _⟩
    · exact other member inside (same_iff_positive.2 ⟨negation.trans negated.symm, same.symm⟩)
    · rw [negation] at positive
      cases positive

theorem not_holds_of_mem (onField : ∀ member ∈ demand, member.field = apart.field)
    (consistent : ∀ one ∈ demand, ∀ two ∈ demand, ¬ Opposite one two)
    (other : ∀ member ∈ demand, ¬ Same apart member) :
    ∀ member ∈ demand, ¬ member.Holds (separating clauses demand apart) := by
  intro member inside
  have meets : (separating clauses demand apart).Meets member.positive ↔
      (∃ one ∈ demand, one.negation = .isNot ∧ Same one.positive member.positive) ∨
        (apart.negation = .is ∧ Same apart.positive member.positive) :=
    iff_of_eq (if_pos (onField member inside))
  rw [Holds]
  cases negation : member.negation with
  | is =>
    intro met
    rcases meets.1 met with ⟨one, oneInside, negated, same⟩ | ⟨positive, same⟩
    · refine consistent one oneInside member inside ⟨?_, same⟩
      rw [negated, negation]
      exact Negation.noConfusion
    · exact other member inside (same_iff_positive.2 ⟨positive.trans negation.symm, same⟩)
  | isNot =>
    intro unmet
    exact unmet (meets.2 (Or.inl ⟨member, inside, negation, Same.refl _⟩))

theorem listHolds_separating (present : apart ∈ clauses)
    (other : ∀ member ∈ demand, ¬ Same apart member) :
    ListHolds (separating clauses demand apart) clauses := by
  intro field inFields
  by_cases same : field = apart.field
  · subst same
    exact ⟨apart, mem_onField.2 ⟨present, rfl⟩, holds_apart other⟩
  · rcases mem_fields.1 inFields with ⟨source, member, rfl⟩
    have nonempty : onField source.field clauses ≠ [] :=
      List.ne_nil_of_mem (mem_onField.2 ⟨member, rfl⟩)
    rcases List.exists_cons_of_ne_nil nonempty with ⟨first, others, split⟩
    have inside : first ∈ onField source.field clauses := by
      rw [split]
      exact List.mem_cons_self
    have sameField := (mem_onField.1 inside).2
    have meets : (separating clauses demand apart).Meets first.positive ↔
        ∃ head, (onField first.field clauses).head? = some head ∧ head.negation = .is := by
      refine iff_of_eq (if_neg ?_)
      intro again
      exact same (sameField.symm.trans again)
    refine ⟨first, inside, ?_⟩
    rw [sameField, split] at meets
    rw [Holds]
    cases negation : first.negation with
    | is => exact meets.2 ⟨first, rfl, negation⟩
    | isNot =>
      intro met
      rcases meets.1 met with ⟨head, sameHead, positive⟩
      rw [← Option.some.inj sameHead, negation] at positive
      cases positive

end

/-- Demands that a list always meets are kept. -/
theorem kept_of_entails {clauses : List Clause} {demands : List (List Clause)}
    (covers : Covers demands clauses)
    (entails : ∀ valuation, ListHolds valuation clauses → Met valuation demands) :
    ∀ demand ∈ demands, Kept clauses demand := by
  intro demand inDemands
  by_contra notKept
  rw [Kept, not_or] at notKept
  rcases notKept with ⟨noOpposite, notAll⟩
  push Not at notAll
  rcases notAll with ⟨apart, present, ⟨member, inside, sameField⟩, other⟩
  rcases covers.oneField demand inDemands with ⟨field, all⟩
  have onField : ∀ other ∈ demand, other.field = apart.field := by
    intro other otherInside
    rw [all other otherInside, ← sameField, all member inside]
  have consistent : ∀ one ∈ demand, ∀ two ∈ demand, ¬ Opposite one two := by
    intro one oneInside two twoInside opposite
    exact noOpposite ⟨one, oneInside, two, twoInside, opposite⟩
  rcases entails _ (listHolds_separating present other) demand inDemands with ⟨met, inDemand, holds⟩
  exact not_holds_of_mem onField consistent other met inDemand holds

/-! ## Queries that are written anew -/

/-- Clauses that were read from a query are supported once they are written as a query whose
conditions are clauses, unless a stray space splits a field or a term. -/
theorem supported_of_rewritten {field : Text} {clauses : List Clause} {query rewritten : Query}
    (nonempty : clauses ≠ []) (read : ofQuery query = .ok clauses)
    (named : ∀ clause ∈ clauses, clause.field ≠ [])
    (again : Query.parse (listText clauses) field = .ok rewritten) (valued : rewritten.Valued)
    (unbroken : ∀ clause ∈ clauses, Unbroken clause.field ∧
      (clause.isRange = false → Unbroken clause.term)) :
    ∀ clause ∈ clauses, clause.Supported := by
  have readable : ∀ clause ∈ clauses, clause.Readable := by
    intro clause member
    refine ⟨named clause member, (unbroken clause member).1, ?_⟩
    intro term
    exact ⟨term_ne_nil_of_parse_listText named again clause member term,
      (unbroken clause member).2 term⟩
  have listable := listable_of_valued nonempty readable again valued
  intro clause member
  rcases exists_mem_left (forall₂_leaves_of_ofQuery read) member with ⟨leaf, _, yields⟩
  exact ⟨readable clause member, listable clause member,
    fun range => Or.inl (yields.live_of_isRange range)⟩

/-- A query that is written anew from its clauses holds wherever it did before.  It means the same
as before exactly when all of its demands are kept. -/
theorem holds_rewritten {text field written : Text} {clauses : List Clause} {rewritten : Query}
    (read : parseList text field = .ok clauses) (nonempty : clauses ≠ [])
    (isWritten : toQuery clauses = .ok written)
    (again : Query.parse written field = .ok rewritten) (valued : rewritten.Valued)
    (unbroken : ∀ clause ∈ clauses, Unbroken clause.field ∧
      (clause.isRange = false → Unbroken clause.term)) :
    ∃ query, Query.parse text field = .ok query ∧
      (∀ valuation, query.Holds valuation → rewritten.Holds valuation) ∧
      ((∀ valuation, query.Holds valuation ↔ rewritten.Holds valuation) ↔
        ∀ demand ∈ query.demands, Kept clauses demand) := by
  have notBlank : text.all isBlank = false := by
    rw [Bool.eq_false_iff]
    intro blank
    rw [parseList, if_pos blank] at read
    exact nonempty (Except.ok.inj read).symm
  rcases (parseList_eq_ok_iff notBlank).1 read with ⟨query, parsed, clausesOf⟩
  rcases toQuery_eq_ok_iff.1 isWritten with ⟨named, rfl⟩
  have supported := supported_of_rewritten nonempty clausesOf named again valued unbroken
  rw [parse_listText nonempty fun clause member => (supported clause member).toReadable] at again
  rw [← Except.ok.inj again]
  have covers := covers_demands clausesOf
  have before (valuation : Valuation) : query.Holds valuation ↔ Met valuation query.demands :=
    holds_iff_met_demands clausesOf
  have after (valuation : Valuation) :
      (listQuery clauses).Holds valuation ↔ ListHolds valuation clauses :=
    holds_listQuery_iff supported
  refine ⟨query, parsed, ?_, ?_⟩
  · intro valuation holds
    exact (after valuation).2 (listHolds_of_met covers ((before valuation).1 holds))
  · constructor
    · intro same
      apply kept_of_entails covers
      intro valuation holds
      exact (before valuation).1 ((same valuation).2 ((after valuation).2 holds))
    · intro kept valuation
      rw [before, after]
      exact ⟨listHolds_of_met covers, met_of_kept covers kept⟩

/-- Demands on different fields are kept. -/
theorem holds_rewritten_of_two_fields :
    parseList "+f:a -g:b".toList ['d'] = .ok
        [⟨.is, ['f'], ['a'], [], true⟩, ⟨.isNot, ['g'], ['b'], [], true⟩] ∧
      ∃ query rewritten, Query.parse "+f:a -g:b".toList ['d'] = .ok query ∧
        Query.parse "+((+f:a)) +((-g:b))".toList ['d'] = .ok rewritten ∧
        ∀ valuation, query.Holds valuation ↔ rewritten.Holds valuation := by
  let clauses : List Clause := [⟨.is, ['f'], ['a'], [], true⟩, ⟨.isNot, ['g'], ['b'], [], true⟩]
  have read : parseList "+f:a -g:b".toList ['d'] = .ok clauses :=
    eq_ok_of_toOption (by decide +kernel)
  have demands : (Query.parse "+f:a -g:b".toList ['d']).toOption.map Query.demands =
      some (clauses.map ([·])) := by
    decide +kernel
  have written : toQuery clauses = .ok "+((+f:a)) +((-g:b))".toList := by
    cbv
  have supported : ∀ clause ∈ clauses, clause.Supported := by decide
  have again : Query.parse "+((+f:a)) +((-g:b))".toList ['d'] = .ok (listQuery clauses) :=
    parse_listText (List.cons_ne_nil _ _)
      (fun clause member => (supported clause member).toReadable) ['d']
  have valued : (listQuery clauses).Valued :=
    valued_listQuery_iff.2 fun clause member => (supported clause member).listable
  rcases holds_rewritten read (List.cons_ne_nil _ _) written again valued (by decide) with
    ⟨query, parsed, _, same⟩
  refine ⟨read, query, listQuery clauses, parsed, again, same.2 ?_⟩
  rw [parsed] at demands
  rw [show query.demands = clauses.map ([·]) from Option.some.inj demands]
  decide

/-- Two demands on one field become alternatives, of which one is enough. -/
theorem meaning_changed_of_two_demands :
    ∃ (valuation : Valuation) (query rewritten : Query),
      Query.parse "+f:a +f:b".toList ['d'] = .ok query ∧
      parseList "+f:a +f:b".toList ['d'] = .ok
        [⟨.is, ['f'], ['a'], [], true⟩, ⟨.is, ['f'], ['b'], [], true⟩] ∧
      toQuery [⟨.is, ['f'], ['a'], [], true⟩, ⟨.is, ['f'], ['b'], [], true⟩] =
        .ok "+((+f:a) (+f:b))".toList ∧
      Query.parse "+((+f:a) (+f:b))".toList ['d'] = .ok rewritten ∧
      ¬ (query.Holds valuation ↔ rewritten.Holds valuation) := by
  let clauses : List Clause := [⟨.is, ['f'], ['a'], [], true⟩, ⟨.is, ['f'], ['b'], [], true⟩]
  let onlyFirst : Valuation := {
    Meets := fun clause => clause.term = ['a']
    respects := by
      intro first second same
      rw [(same_iff.1 same).2.2.1] }
  have supported : ∀ clause ∈ clauses, clause.Supported := by decide
  have read : parseList "+f:a +f:b".toList ['d'] = .ok clauses :=
    eq_ok_of_toOption (by decide +kernel)
  have demands : (Query.parse "+f:a +f:b".toList ['d']).toOption.map Query.demands =
      some (clauses.map ([·])) := by
    decide +kernel
  have again : Query.parse "+((+f:a) (+f:b))".toList ['d'] = .ok (listQuery clauses) :=
    parse_listText (List.cons_ne_nil _ _)
      (fun clause member => (supported clause member).toReadable) ['d']
  rcases (parseList_eq_ok_iff (by decide)).1 read with ⟨query, parsed, clausesOf⟩
  refine ⟨onlyFirst, query, listQuery clauses, parsed, read, by cbv, again, ?_⟩
  intro same
  have after : (listQuery clauses).Holds onlyFirst := by
    rw [holds_listQuery_iff supported]
    intro field present
    refine ⟨⟨.is, ['f'], ['a'], [], true⟩, mem_onField.2 ⟨List.mem_cons_self, ?_⟩, rfl⟩
    rcases mem_fields.1 present with ⟨clause, member, rfl⟩
    have all : ∀ clause ∈ clauses, ['f'] = clause.field := by decide
    exact all clause member
  have met := (holds_iff_met_demands clausesOf).1 (same.2 after)
  rw [parsed] at demands
  rw [show query.demands = clauses.map ([·]) from Option.some.inj demands] at met
  rcases met [⟨.is, ['f'], ['b'], [], true⟩] (by decide) with ⟨clause, inside, holds⟩
  rw [List.mem_singleton.1 inside] at holds
  have impossible : ['b'] = ['a'] := holds
  exact absurd impossible (by decide)

end Clause

end AlarmQuery
