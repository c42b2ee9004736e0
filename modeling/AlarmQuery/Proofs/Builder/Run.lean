import AlarmQuery.Builder
import AlarmQuery.Proofs.Query.Leaves
import Mathlib.Data.List.Induction

/-!
# Runs of a builder

A user sets queries and lists of clauses, adds clauses and edits them, and removes clauses, in any
order.  Every action keeps the fields of a builder in step (`Builder.Consistent`).  What was set
last decides whether the search is a list of clauses or a rejected query.  Additions and removals
behind it change the clauses, also those that a rejected query left aside, and never the decision.
-/

namespace AlarmQuery

/-- No error has the status of a query that is fine. -/
theorem QueryError.status_ne_ok (error : QueryError) : error.status ≠ .ok := by
  rw [QueryError.status]
  split
  · intro fine
    cases fine
  · intro fine
    cases fine

namespace Builder

/-! ## What a user does -/

/-- A change of the clauses of a builder. -/
inductive Change
  /-- Adds the standard clause, and edits it in any way. -/
  | add (edit : Clause → Clause)
  | remove (index : Nat)

/-- What takes the place of the search. -/
inductive Setting
  | query (text : Text)
  | clauses (clauses : List Clause)

/-- One thing that a user does to a builder. -/
inductive Action
  | set (setting : Setting)
  | change (change : Change)

/-- The clauses after a change. -/
def Change.apply (clauses : List Clause) : Change → List Clause
  | .add edit => clauses ++ [edit (.any Field.standard)]
  | .remove index => clauses.eraseIdx index

/-- The clauses after one change after the other. -/
def changed (clauses : List Clause) (changes : List Change) : List Clause :=
  changes.foldl Change.apply clauses

/-- The builder after an action. -/
def perform (builder : Builder) : Action → Builder
  | .set (.query text) => builder.setQuery text
  | .set (.clauses clauses) => builder.setClauses clauses
  | .change (.add edit) => builder.add edit
  | .change (.remove index) => builder.remove index

/-- The builder after one action after the other. -/
def run (builder : Builder) (actions : List Action) : Builder := actions.foldl perform builder

/-! ## Single actions -/

/-- An action never changes the field that queries are about. -/
@[simp]
theorem defaultField_perform (builder : Builder) (action : Action) :
    (builder.perform action).defaultField = builder.defaultField := by
  rcases action with (text | clauses) | (edit | index)
  · rw [perform, setQuery]
    split <;> rfl
  · rfl
  · rfl
  · rfl

/-- A change is made to the clauses and to nothing else. -/
theorem perform_change (builder : Builder) (change : Change) :
    builder.perform (.change change) =
      { builder with clauses := change.apply builder.clauses } := by
  cases change <;> rfl

/-- There is no clause to remove past the end. -/
theorem remove_of_length_le {builder : Builder} {index : Nat}
    (past : builder.clauses.length ≤ index) : builder.remove index = builder := by
  rw [remove, List.eraseIdx_of_length_le past]

/-! ## Fields in step -/

/-- The fields of a builder are in step.  It is editable when its status is fine, and otherwise its
text is a query that is rejected with this status. -/
structure Consistent (builder : Builder) : Prop where
  editable_iff : builder.editable = true ↔ builder.status = .ok
  rejected : builder.editable = false →
    ∃ error, Clause.parseList builder.raw builder.defaultField = .error error ∧
      builder.status = error.status

theorem consistent_of_editable {builder : Builder} (editable : builder.editable = true)
    (status : builder.status = .ok) : builder.Consistent where
  editable_iff := ⟨fun _ => status, fun _ => editable⟩
  rejected := by
    intro notEditable
    rw [editable] at notEditable
    cases notEditable

theorem consistent_of_rejected {builder : Builder} {error : QueryError}
    (editable : builder.editable = false) (status : builder.status = error.status)
    (read : Clause.parseList builder.raw builder.defaultField = .error error) :
    builder.Consistent where
  editable_iff := by
    rw [editable, status]
    constructor
    · intro impossible
      cases impossible
    · intro fine
      exact absurd fine error.status_ne_ok
  rejected := fun _ => ⟨error, read, status⟩

theorem consistent_new (field : Text) : (new field).Consistent :=
  consistent_of_editable rfl rfl

/-- Whatever was set before, a query that is set brings the fields into step. -/
theorem consistent_setQuery (builder : Builder) (text : Text) :
    (builder.setQuery text).Consistent := by
  rw [setQuery]
  cases read : Clause.parseList text builder.defaultField with
  | ok clauses => exact consistent_of_editable rfl rfl
  | error error => exact consistent_of_rejected rfl rfl read

/-- Every action keeps the fields in step. -/
theorem Consistent.perform {builder : Builder} (consistent : builder.Consistent)
    (action : Action) : (builder.perform action).Consistent := by
  rcases action with (text | clauses) | change
  · exact consistent_setQuery builder text
  · exact consistent_of_editable rfl rfl
  · rw [perform_change]
    exact ⟨consistent.editable_iff, consistent.rejected⟩

/-! ## Runs -/

@[simp]
theorem run_append (builder : Builder) (first second : List Action) :
    builder.run (first ++ second) = (builder.run first).run second :=
  List.foldl_append

@[simp]
theorem defaultField_run (builder : Builder) (actions : List Action) :
    (builder.run actions).defaultField = builder.defaultField := by
  induction actions generalizing builder with
  | nil => rfl
  | cons action actions ih => exact (ih (builder.perform action)).trans (by simp)

/-- A run keeps the fields in step. -/
theorem Consistent.run {builder : Builder} (consistent : builder.Consistent)
    (actions : List Action) : (builder.run actions).Consistent := by
  induction actions generalizing builder with
  | nil => exact consistent
  | cons action actions ih => exact ih (consistent.perform action)

/-- Changes are made to the clauses one after the other, and to nothing else. -/
theorem run_changes (builder : Builder) (changes : List Change) :
    builder.run (changes.map .change) =
      { builder with clauses := changed builder.clauses changes } := by
  induction changes generalizing builder with
  | nil => rfl
  | cons change changes ih =>
    rw [List.map_cons, run, List.foldl_cons, perform_change]
    exact ih _

/-- A run consists of changes, or ends with the changes behind what was set last. -/
theorem exists_last_set (actions : List Action) :
    (∃ changes : List Change, actions = changes.map .change) ∨
      ∃ before setting, ∃ changes : List Change,
        actions = before ++ .set setting :: changes.map .change := by
  induction actions using List.reverseRecOn with
  | nil => exact Or.inl ⟨[], rfl⟩
  | append_singleton actions action ih =>
    cases action with
    | set setting => exact Or.inr ⟨actions, setting, [], rfl⟩
    | change change =>
      rcases ih with ⟨changes, rfl⟩ | ⟨before, setting, changes, rfl⟩
      · exact Or.inl ⟨changes ++ [change], by simp⟩
      · exact Or.inr ⟨before, setting, changes ++ [change], by simp⟩

/-! ## What a run comes to -/

/-- The search is a list of clauses, and its query is what they are written as. -/
structure Lists (builder : Builder) (clauses : List Clause) : Prop where
  editable : builder.editable = true
  holds : builder.clauses = clauses
  query : builder.query = Clause.toQuery clauses

/-- The search is a query that is no list of clauses, which stand aside. -/
structure Rejects (builder : Builder) (text : Text) (error : QueryError)
    (clauses : List Clause) : Prop where
  editable : builder.editable = false
  status : builder.status =
    match error with
    | .malformed _ => .invalid error.display
    | _ => .tooComplex error.display
  query : builder.query = .ok text
  keeps : builder.clauses = clauses

theorem lists_of_editable {builder : Builder} (editable : builder.editable = true) :
    builder.Lists builder.clauses where
  editable := editable
  holds := rfl
  query := if_pos editable

theorem rejects_of_not_editable {builder : Builder} {error : QueryError}
    (editable : builder.editable = false) (status : builder.status = error.status) :
    builder.Rejects builder.raw error builder.clauses where
  editable := editable
  status := by
    rw [status]
    cases error <;> rfl
  query := by rw [query, editable, if_neg Bool.false_ne_true]
  keeps := rfl

/-- What was set last decides, whatever was changed behind it. -/
theorem run_set (builder : Builder) (setting : Setting) (changes : List Change) :
    match setting with
    | .clauses clauses =>
      (builder.run (.set setting :: changes.map .change)).Lists (changed clauses changes)
    | .query text =>
      match Clause.parseList text builder.defaultField with
      | .ok clauses =>
        (builder.run (.set setting :: changes.map .change)).Lists (changed clauses changes)
      | .error error =>
        (builder.run (.set setting :: changes.map .change)).Rejects text error
          (changed builder.clauses changes) := by
  have split : builder.run (.set setting :: changes.map .change) =
      { builder.perform (.set setting) with
        clauses := changed (builder.perform (.set setting)).clauses changes } :=
    run_changes (builder.perform (.set setting)) changes
  rw [split]
  cases setting with
  | clauses clauses => exact lists_of_editable rfl
  | query text =>
    simp only [perform, setQuery]
    cases Clause.parseList text builder.defaultField with
    | ok clauses => exact lists_of_editable rfl
    | error error => exact rejects_of_not_editable rfl rfl

/-- After any run of a new builder the search is a list of clauses exactly when the status is fine,
and a clause past the end cannot be removed.  The search is the list of clauses that was set last,
by itself or by a query, with the changes behind it, or what was changed from the beginning.  Only
a query that is no list of clauses stands as it is, and the clauses from before it are changed. -/
theorem run_new (field : Text) (actions : List Action) :
    let builder := (new field).run actions
    (builder.editable = true ↔ builder.status = .ok) ∧
      (∀ index, builder.clauses.length ≤ index → builder.remove index = builder) ∧
      (∀ changes : List Change, actions = changes.map .change →
        builder.Lists (changed [] changes)) ∧
      (∀ before setting, ∀ changes : List Change,
        actions = before ++ .set setting :: changes.map .change →
          match setting with
          | .clauses clauses => builder.Lists (changed clauses changes)
          | .query text =>
            match Clause.parseList text field with
            | .ok clauses => builder.Lists (changed clauses changes)
            | .error error =>
              builder.Rejects text error (changed ((new field).run before).clauses changes)) ∧
      ((∃ changes : List Change, actions = changes.map .change) ∨
        ∃ before setting, ∃ changes : List Change,
          actions = before ++ .set setting :: changes.map .change) := by
  refine ⟨((consistent_new field).run actions).editable_iff, fun index => remove_of_length_le,
    ?_, ?_, exists_last_set actions⟩
  · rintro changes rfl
    rw [run_changes]
    exact lists_of_editable rfl
  · rintro before setting changes rfl
    have last := run_set ((new field).run before) setting changes
    rw [defaultField_run] at last
    rw [run_append]
    exact last

/-- A rejected query stands as it is while the clauses from before it are changed. -/
theorem run_new_of_rejected_query :
    let builder := (new ['d']).run [.set (.query "+f:a".toList),
      .change (.add fun clause => { clause with term := ['x'] }), .set (.query "a OR b".toList),
      .change (.remove 0), .change (.remove 7), .change (.add id)]
    builder.editable = false ∧
      builder.status = .tooComplex "Query not supported: unsupported occur value: SHOULD".toList ∧
      builder.query = .ok "a OR b".toList ∧
      builder.clauses = [{ Clause.any ['p', 'v'] with term := ['x'] }, Clause.any ['p', 'v']] := by
  let before : List Action := [.set (.query "+f:a".toList),
    .change (.add fun clause => { clause with term := ['x'] })]
  have read : Clause.parseList "+f:a".toList ['d'] = .ok [⟨.is, ['f'], ['a'], [], true⟩] :=
    eq_ok_of_toOption (by decide +kernel)
  have clausesBefore : ((new ['d']).run before).clauses =
      [⟨.is, ['f'], ['a'], [], true⟩, { Clause.any ['p', 'v'] with term := ['x'] }] := by
    have first : (new ['d']).perform (.set (.query "+f:a".toList)) =
        ⟨['d'], [⟨.is, ['f'], ['a'], [], true⟩], "+f:a".toList, true, .ok⟩ := by
      rw [perform, setQuery, new, read]
    rw [run, List.foldl_cons, first]
    rfl
  have last := (run_new ['d'] _).2.2.2.1 before (.query "a OR b".toList)
    [.remove 0, .remove 7, .add id] rfl
  cases outcome : Clause.parseList "a OR b".toList ['d'] with
  | ok clauses =>
    have refused : (Clause.parseList "a OR b".toList ['d']).toOption = none := by decide +kernel
    rw [outcome] at refused
    cases refused
  | error error =>
    simp only [outcome] at last
    rw [clausesBefore] at last
    exact ⟨last.editable, by decide +kernel, last.query, last.keeps⟩

end Builder

end AlarmQuery
