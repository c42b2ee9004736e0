import AlarmQuery.Builder
import AlarmQuery.Proofs.Clause.Faithful

/-!
# Writing an accepted query back

A builder that accepts a query writes it again from its clauses.  What it writes is accepted as
the same search, and written back without a change, exactly when every clause of the query is
supported.
-/

namespace AlarmQuery

namespace Builder

/-- A query is accepted when it is a list of clauses, which are the clauses from then on. -/
theorem editable_setQuery_iff {builder : Builder} {text : Text} :
    (builder.setQuery text).editable = true ↔
      ∃ clauses, Clause.parseList text builder.defaultField = .ok clauses ∧
        builder.setQuery text =
          { builder with raw := text, clauses, editable := true, status := .ok } := by
  rw [setQuery]
  cases read : Clause.parseList text builder.defaultField with
  | error error =>
    constructor
    · intro accepted
      cases accepted
    · rintro ⟨_, impossible, _⟩
      cases impossible
  | ok clauses =>
    constructor
    · intro _
      exact ⟨clauses, rfl, rfl⟩
    · intro _
      rfl

/-- While the search is a list of clauses, its query is what they are written as. -/
theorem query_of_editable {builder : Builder} (editable : builder.editable = true) :
    builder.query = Clause.toQuery builder.clauses := if_pos editable

/-- The search is written as a query that is accepted as the same clauses, field by field, and is
written again as itself. -/
def Rewrites (builder : Builder) : Prop :=
  ∃ written, builder.query = .ok written ∧ (builder.setQuery written).editable = true ∧
    List.Forall₂ Clause.Same (builder.setQuery written).clauses
      (Clause.grouped builder.clauses) ∧
    (builder.setQuery written).query = .ok written

theorem supported_of_rewrites {builder : Builder} (editable : builder.editable = true)
    (rewrites : builder.Rewrites) : ∀ clause ∈ builder.clauses, clause.Supported := by
  rcases rewrites with ⟨written, query, again, same, _⟩
  rw [query_of_editable editable] at query
  rcases Clause.toQuery_eq_ok_iff.1 query with ⟨named, rfl⟩
  rcases editable_setQuery_iff.1 again with ⟨found, read, state⟩
  rw [state] at same
  exact Clause.supported_of_same named read same

theorem rewrites_of_supported {builder : Builder} (editable : builder.editable = true)
    (supported : ∀ clause ∈ builder.clauses, clause.Supported) : builder.Rewrites := by
  let found := (Clause.grouped builder.clauses).map Clause.asRead
  have read : Clause.parseList (Clause.listText builder.clauses) builder.defaultField = .ok found :=
    Clause.parseList_listText (fun clause member => (supported clause member).toReadable)
      (fun clause member => (supported clause member).listable) builder.defaultField
  have same : List.Forall₂ Clause.Same found (Clause.grouped builder.clauses) :=
    Clause.same_of_supported supported read
  have state : builder.setQuery (Clause.listText builder.clauses) =
      ⟨builder.defaultField, found, Clause.listText builder.clauses, true, .ok⟩ := by
    rw [setQuery, read]
  have named : ∀ clause ∈ builder.clauses, clause.field ≠ [] := fun clause member =>
    (supported clause member).named
  have namedFound : ∀ clause ∈ found, clause.field ≠ [] := by
    intro clause member
    rcases List.mem_map.1 member with ⟨source, inside, rfl⟩
    exact named source (Clause.mem_grouped.1 inside)
  refine ⟨Clause.listText builder.clauses, ?_, ?_, ?_, ?_⟩
  · rw [query_of_editable editable]
    exact Clause.toQuery_eq_ok_iff.2 ⟨named, rfl⟩
  · rw [state]
  · rw [state]
    exact same
  · rw [state]
    apply Clause.toQuery_eq_ok_iff.2
    exact ⟨namedFound, (Clause.listText_eq_of_same same).trans (Clause.listText_grouped _)⟩

/-- An accepted query can be written back exactly when all its clauses are supported. -/
theorem rewrites_setQuery_iff {builder : Builder} {text : Text}
    (accepted : (builder.setQuery text).editable = true) :
    (builder.setQuery text).Rewrites ↔
      ∀ clause ∈ (builder.setQuery text).clauses, clause.Supported :=
  ⟨supported_of_rewrites accepted, rewrites_of_supported accepted⟩

/-- The empty string is a term that a query can ask for, but no clause that can be written. -/
theorem not_rewrites_of_empty_quotes :
    ((new ['d']).setQuery "pv:\"\"".toList).editable = true ∧
      ¬ ((new ['d']).setQuery "pv:\"\"".toList).Rewrites := by
  have read : Clause.parseList "pv:\"\"".toList ['d'] = .ok [⟨.is, ['p', 'v'], [], [], true⟩] :=
    eq_ok_of_toOption (by decide +kernel)
  have state : (new ['d']).setQuery "pv:\"\"".toList =
      ⟨['d'], [⟨.is, ['p', 'v'], [], [], true⟩], "pv:\"\"".toList, true, .ok⟩ := by
    rw [setQuery, new, read]
  have accepted : ((new ['d']).setQuery "pv:\"\"".toList).editable = true := by
    rw [state]
  refine ⟨accepted, ?_⟩
  intro rewrites
  have supported := (rewrites_setQuery_iff accepted).1 rewrites
  rw [state] at supported
  exact absurd (supported _ List.mem_cons_self) (by decide)

end Builder

end AlarmQuery
