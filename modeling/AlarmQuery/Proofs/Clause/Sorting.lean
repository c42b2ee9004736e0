import AlarmQuery.Proofs.Clause.Grouping
import Mathlib.Data.Char
import Mathlib.Data.List.Lex

/-!
# Clauses in the order of their contents

Lists of clauses are compared after they were sorted by field, term and upper bound.  Sorting is
stable, so a sorted list is determined by the clauses with each key, and since grouping keeps the
order of the clauses on a field it does not matter to a list that is sorted afterwards.
-/

namespace AlarmQuery

namespace Clause

/-- What clauses are sorted by. -/
def sortKey (clause : Clause) : List Text := [clause.field, clause.term, clause.upTo]

/-- Whether a clause may stand in front of another one. -/
def sortsBefore (first second : Clause) : Bool := first.sortKey ≤ second.sortKey

/-- The clauses sorted by their keys.  Clauses with the same key stay in their order. -/
def sorted (clauses : List Clause) : List Clause := clauses.mergeSort sortsBefore

/-- The clauses with one key, in their order. -/
def withKey (key : List Text) (clauses : List Clause) : List Clause :=
  clauses.filter fun clause => clause.sortKey = key

theorem sortsBefore_iff {first second : Clause} :
    sortsBefore first second = true ↔ first.sortKey ≤ second.sortKey :=
  decide_eq_true_iff

theorem sortsBefore_trans (first second third : Clause) (one : sortsBefore first second = true)
    (two : sortsBefore second third = true) : sortsBefore first third = true := by
  rw [sortsBefore_iff] at one two ⊢
  exact one.trans two

theorem sortsBefore_total (first second : Clause) :
    (sortsBefore first second || sortsBefore second first) = true := by
  rw [Bool.or_eq_true, sortsBefore_iff, sortsBefore_iff]
  exact le_total first.sortKey second.sortKey

theorem pairwise_sorted (clauses : List Clause) :
    (sorted clauses).Pairwise fun first second => sortsBefore first second = true :=
  List.pairwise_mergeSort sortsBefore_trans sortsBefore_total clauses

@[simp]
theorem mem_withKey {key : List Text} {clause : Clause} {clauses : List Clause} :
    clause ∈ withKey key clauses ↔ clause ∈ clauses ∧ clause.sortKey = key := by
  rw [withKey, List.mem_filter, decide_eq_true_eq]

/-! ## Stability -/

/-- Sorting keeps the clauses with each key in their order. -/
@[simp]
theorem withKey_sorted (key : List Text) (clauses : List Clause) :
    withKey key (sorted clauses) = withKey key clauses := by
  have alike : (withKey key clauses).Pairwise fun first second =>
      sortsBefore first second = true := by
    apply List.pairwise_of_forall_mem_list
    intro first firstMember second secondMember
    rw [sortsBefore_iff, (mem_withKey.1 firstMember).2, (mem_withKey.1 secondMember).2]
  have kept : (withKey key clauses).Sublist (sorted clauses) :=
    List.sublist_mergeSort sortsBefore_trans sortsBefore_total alike List.filter_sublist
  have inside : (withKey key clauses).Sublist (withKey key (sorted clauses)) := by
    have filtered := kept.filter fun clause => clause.sortKey = key
    simpa [withKey] using filtered
  symm
  apply inside.eq_of_length
  exact ((List.mergeSort_perm clauses sortsBefore).filter _).length_eq.symm

section

variable {clause : Clause} {first second : List Clause}

/-- The first clause of a sorted list has the least key. -/
theorem sortKey_le_of_mem {head : Clause}
    (inOrder : (head :: first).Pairwise fun one two => sortsBefore one two = true)
    (member : clause ∈ head :: first) : head.sortKey ≤ clause.sortKey := by
  rcases List.mem_cons.1 member with rfl | later
  · exact le_refl _
  · exact sortsBefore_iff.1 ((List.pairwise_cons.1 inOrder).1 clause later)

theorem mem_of_withKey (same : ∀ key, withKey key first = withKey key second)
    (member : clause ∈ first) : clause ∈ second := by
  have present : clause ∈ withKey clause.sortKey first := mem_withKey.2 ⟨member, rfl⟩
  rw [same] at present
  exact (mem_withKey.1 present).1

theorem withKey_tail (same : ∀ key, withKey key (clause :: first) = withKey key (clause :: second))
    (key : List Text) : withKey key first = withKey key second := by
  have whole := same key
  by_cases found : clause.sortKey = key
  · rw [withKey, withKey, List.filter_cons_of_pos (by simp [found]),
      List.filter_cons_of_pos (by simp [found]), List.cons.injEq] at whole
    exact whole.2
  · rwa [withKey, withKey, List.filter_cons_of_neg (by simp [found]),
      List.filter_cons_of_neg (by simp [found])] at whole

/-- Sorted lists with the same clauses for each key are equal. -/
theorem eq_of_withKey
    (firstSorted : first.Pairwise fun one two => sortsBefore one two = true)
    (secondSorted : second.Pairwise fun one two => sortsBefore one two = true)
    (same : ∀ key, withKey key first = withKey key second) : first = second := by
  induction first generalizing second with
  | nil =>
    cases second with
    | nil => rfl
    | cons clause second =>
      have absent := mem_of_withKey (fun key => (same key).symm) List.mem_cons_self
      exact absurd absent List.not_mem_nil
  | cons clause first ih =>
    cases second with
    | nil => exact absurd (mem_of_withKey same List.mem_cons_self) List.not_mem_nil
    | cons other second =>
      have upward := sortKey_le_of_mem firstSorted
        (mem_of_withKey (fun key => (same key).symm) List.mem_cons_self)
      have downward := sortKey_le_of_mem secondSorted (mem_of_withKey same List.mem_cons_self)
      have keys : other.sortKey = clause.sortKey := le_antisymm downward upward
      -- clauses with the smallest key come first, so both lists begin with the same one
      have heads := same clause.sortKey
      rw [withKey, withKey, List.filter_cons_of_pos (by simp),
        List.filter_cons_of_pos (by simp [keys]), List.cons.injEq] at heads
      rcases heads with ⟨rfl, _⟩
      rw [ih (List.pairwise_cons.1 firstSorted).2 (List.pairwise_cons.1 secondSorted).2
        (withKey_tail same)]

end

theorem sorted_eq_of_withKey {first second : List Clause}
    (same : ∀ key, withKey key first = withKey key second) : sorted first = sorted second := by
  apply eq_of_withKey (pairwise_sorted first) (pairwise_sorted second)
  intro key
  rw [withKey_sorted, withKey_sorted, same]

/-! ## Grouping and sorting -/

theorem withKey_onField (key : List Text) (clauses : List Clause) :
    withKey key (onField (key.headD []) clauses) = withKey key clauses := by
  rw [withKey, withKey, onField, List.filter_filter]
  apply List.filter_congr
  intro clause _
  by_cases found : clause.sortKey = key
  · subst found
    simp [sortKey]
  · simp [found]

@[simp]
theorem sorted_grouped (clauses : List Clause) : sorted (grouped clauses) = sorted clauses := by
  apply sorted_eq_of_withKey
  intro key
  rw [← withKey_onField, onField_grouped, withKey_onField]

/-- A change that keeps the keys may be made before or after sorting. -/
theorem sorted_map {change : Clause → Clause}
    (keeps : ∀ clause, (change clause).sortKey = clause.sortKey) (clauses : List Clause) :
    sorted (clauses.map change) = (sorted clauses).map change := by
  symm
  apply List.map_mergeSort
  intro first _ second _
  rw [sortsBefore, sortsBefore, keeps, keeps]

end Clause

end AlarmQuery
