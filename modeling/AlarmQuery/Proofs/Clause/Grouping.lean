import AlarmQuery.Clause.ToQuery
import Mathlib.Data.List.Basic
import Mathlib.Data.List.Flatten
import Mathlib.Data.List.Nodup
import Mathlib.Data.List.Perm.Basic

/-!
# Clauses in the order of their groups

Grouping changes the order of clauses on different fields only.  The clauses on one field stay as
they are, and a grouped list is grouped already.
-/

namespace AlarmQuery

namespace Clause

/-! ## Fields and groups -/

@[simp]
theorem mem_fields {field : Text} {clauses : List Clause} :
    field ∈ fields clauses ↔ ∃ clause ∈ clauses, clause.field = field := by
  rw [fields, List.mem_eraseDups, List.mem_map]

@[simp]
theorem mem_onField {field : Text} {clause : Clause} {clauses : List Clause} :
    clause ∈ onField field clauses ↔ clause ∈ clauses ∧ clause.field = field := by
  rw [onField, List.mem_filter, decide_eq_true_eq]

theorem nodup_eraseDups {α : Type} [BEq α] [LawfulBEq α] (items : List α) :
    items.eraseDups.Nodup := by
  induction size : items.length using Nat.strongRecOn generalizing items with
  | _ _ ih =>
    subst size
    cases items with
    | nil => exact List.nodup_nil
    | cons item items =>
      rw [List.eraseDups_cons, List.nodup_cons]
      constructor
      · intro again
        rw [List.mem_eraseDups, List.mem_filter] at again
        simp at again
      · have shorter := List.length_filter_le (fun other => !other == item) items
        exact ih _ (Nat.lt_succ_of_le shorter) _ rfl

theorem nodup_fields (clauses : List Clause) : (fields clauses).Nodup :=
  nodup_eraseDups _

/-- A group is made of clauses on one field, and there is at least one. -/
theorem mem_groups {group : List Clause} {clauses : List Clause} :
    group ∈ groups clauses ↔ ∃ field ∈ fields clauses, onField field clauses = group := by
  rw [groups, List.mem_map]

theorem ne_nil_of_mem_groups {group : List Clause} {clauses : List Clause}
    (member : group ∈ groups clauses) : group ≠ [] := by
  rcases mem_groups.1 member with ⟨field, present, rfl⟩
  rcases mem_fields.1 present with ⟨clause, inside, same⟩
  exact List.ne_nil_of_mem (mem_onField.2 ⟨inside, same⟩)

theorem mem_of_mem_groups {group : List Clause} {clause : Clause} {clauses : List Clause}
    (member : group ∈ groups clauses) (inside : clause ∈ group) : clause ∈ clauses := by
  rcases mem_groups.1 member with ⟨field, _, rfl⟩
  exact (mem_onField.1 inside).1

@[simp]
theorem groups_eq_nil_iff {clauses : List Clause} : groups clauses = [] ↔ clauses = [] := by
  constructor
  · intro empty
    rw [groups, List.map_eq_nil_iff] at empty
    cases clauses with
    | nil => rfl
    | cons clause clauses =>
      have present : clause.field ∈ fields (clause :: clauses) :=
        mem_fields.2 ⟨clause, List.mem_cons_self, rfl⟩
      rw [empty] at present
      exact absurd present List.not_mem_nil
  · rintro rfl
    rfl

@[simp]
theorem mem_grouped {clause : Clause} {clauses : List Clause} :
    clause ∈ grouped clauses ↔ clause ∈ clauses := by
  rw [grouped, List.mem_flatten]
  constructor
  · rintro ⟨group, member, inside⟩
    exact mem_of_mem_groups member inside
  · intro inside
    refine ⟨onField clause.field clauses, mem_groups.2 ⟨clause.field, ?_, rfl⟩, ?_⟩
    · exact mem_fields.2 ⟨clause, inside, rfl⟩
    · exact mem_onField.2 ⟨inside, rfl⟩

/-! ## What grouping keeps -/

theorem onField_onField (field other : Text) (clauses : List Clause) :
    onField field (onField other clauses) =
      if other = field then onField field clauses else [] := by
  split
  · rename_i same
    subst same
    rw [onField, onField, List.filter_filter]
    simp
  · rename_i different
    rw [onField, List.filter_eq_nil_iff]
    intro clause member
    rw [mem_onField] at member
    rw [decide_eq_true_eq, member.2]
    exact different

/-- Of blocks on different fields at most one is about a given field. -/
theorem onField_flatten {keys : List Text} (different : keys.Nodup) (field : Text)
    (clauses : List Clause) :
    onField field (keys.map fun key => onField key clauses).flatten =
      if field ∈ keys then onField field clauses else [] := by
  induction keys with
  | nil => rfl
  | cons key keys ih =>
    rcases List.nodup_cons.1 different with ⟨fresh, others⟩
    have split : onField field ((key :: keys).map fun key => onField key clauses).flatten =
        onField field (onField key clauses) ++
          onField field (keys.map fun key => onField key clauses).flatten := by
      simp [onField]
    rw [split, ih others, onField_onField]
    by_cases same : key = field
    · subst same
      simp [fresh]
    · simp [same, Ne.symm same]

/-- Grouping keeps the clauses on each field in their order. -/
@[simp]
theorem onField_grouped (field : Text) (clauses : List Clause) :
    onField field (grouped clauses) = onField field clauses := by
  rw [grouped, groups, onField_flatten (nodup_fields clauses)]
  split
  · rfl
  · rename_i absent
    symm
    rw [onField, List.filter_eq_nil_iff]
    intro clause member same
    rw [decide_eq_true_eq] at same
    exact absent (mem_fields.2 ⟨clause, member, same⟩)

/-- First occurrences in a sequence of blocks, each of one value. -/
theorem eraseDups_flatten {α : Type} [BEq α] [LawfulBEq α] {keys : List α}
    (different : keys.Nodup) {block : α → List α}
    (same : ∀ key ∈ keys, block key ≠ [] ∧ ∀ item ∈ block key, item = key) :
    (keys.map block).flatten.eraseDups = keys := by
  induction keys with
  | nil => rfl
  | cons key keys ih =>
    rcases List.nodup_cons.1 different with ⟨fresh, others⟩
    rcases same key List.mem_cons_self with ⟨nonempty, only⟩
    have later : ∀ other ∈ keys, block other ≠ [] ∧ ∀ item ∈ block other, item = other :=
      fun other member => same other (List.mem_cons_of_mem _ member)
    have first : (block key).eraseDups = [key] := by
      rcases List.exists_cons_of_ne_nil nonempty with ⟨item, items, spelled⟩
      rw [spelled] at only ⊢
      have head : item = key := only item List.mem_cons_self
      subst head
      have noOthers : (items.filter fun other => !other == item) = [] := by
        rw [List.filter_eq_nil_iff]
        intro other member
        simp [only other (List.mem_cons_of_mem _ member)]
      rw [List.eraseDups_cons, noOthers, List.eraseDups_nil]
    have kept : (keys.map block).flatten.removeAll (block key) = (keys.map block).flatten := by
      rw [List.removeAll, List.filter_eq_self]
      intro item member
      rcases by simpa using member with ⟨other, inside, present⟩
      have itemIsOther := (later other inside).2 item present
      have absent : item ∉ block key := by
        intro again
        have itemIsKey := only item again
        rw [itemIsOther] at itemIsKey
        exact fresh (itemIsKey ▸ inside)
      simpa using absent
    rw [List.map_cons, List.flatten_cons, List.eraseDups_append, first, kept, ih others later]
    rfl

@[simp]
theorem fields_grouped (clauses : List Clause) : fields (grouped clauses) = fields clauses := by
  have blocks : (grouped clauses).map Clause.field =
      ((fields clauses).map fun field => (onField field clauses).map Clause.field).flatten := by
    simp [grouped, groups, List.map_flatten, Function.comp_def]
  rw [fields, blocks]
  apply eraseDups_flatten (nodup_fields clauses)
  intro field present
  constructor
  · rcases mem_fields.1 present with ⟨clause, inside, same⟩
    simpa using List.ne_nil_of_mem (mem_onField.2 ⟨inside, same⟩)
  · intro item member
    rcases List.mem_map.1 member with ⟨clause, inside, rfl⟩
    exact (mem_onField.1 inside).2

@[simp]
theorem groups_grouped (clauses : List Clause) : groups (grouped clauses) = groups clauses := by
  rw [groups, groups, fields_grouped]
  exact List.map_congr_left fun field _ => onField_grouped field clauses

theorem grouped_perm (clauses : List Clause) : (grouped clauses).Perm clauses := by
  rw [List.perm_iff_count]
  intro clause
  have counted (items : List Clause) :
      items.count clause = (onField clause.field items).count clause :=
    (List.count_filter (by simp)).symm
  rw [counted, counted clauses, onField_grouped]

end Clause

end AlarmQuery
