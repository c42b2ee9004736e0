import AlarmQuery.Proofs.Clause.RoundTrip

/-!
# Lists of clauses that are written alike

Whatever its clauses hold, the text of a list can be taken apart again: it ends a clause, a group
and the list where they were ended.  So the text says everything about a list but how the clauses
on different fields are interleaved.
-/

namespace AlarmQuery

/-! ## Texts that say where they end -/

theorem Text.join_cons (separator text : Text) (others : List Text) :
    join separator (text :: others) = text ++ others.flatMap fun other => separator ++ other := by
  induction others generalizing text with
  | nil => simp
  | cons other others ih =>
    rw [join_cons_cons, ih, List.flatMap_cons, List.append_assoc, List.append_assoc]

/-- The texts say where they end in front of a parenthesis: whatever follows it, they are equal only
if they were written for related items and the same follows. -/
def EndsAtParenthesis {α : Type} (related : α → α → Prop) (code : α → Text) : Prop :=
  ∀ ⦃first second : α⦄ ⦃rest others : Text⦄,
    code first ++ ')' :: rest = code second ++ ')' :: others → related first second ∧ rest = others

namespace EndsAtParenthesis

variable {α : Type} {related : α → α → Prop} {code : α → Text}

/-- The texts in parentheses, each behind a space, say where they end. -/
theorem flatMap (ends : EndsAtParenthesis related code) (left : Text) :
    EndsAtParenthesis (List.Forall₂ related) fun items =>
      items.flatMap fun item => ' ' :: (left ++ (code item ++ [')'])) := by
  intro first second rest others same
  induction first generalizing second with
  | nil =>
    cases second with
    | nil => exact ⟨.nil, (List.cons.inj same).2⟩
    | cons item second => cases same
  | cons item first ih =>
    cases second with
    | nil => cases same
    | cons other second =>
      simp only [List.flatMap_cons, List.cons_append, List.append_assoc, List.nil_append] at same
      rcases ends (List.append_cancel_left (List.cons.inj same).2) with ⟨head, behind⟩
      rcases ih behind with ⟨tail, rests⟩
      exact ⟨.cons head tail, rests⟩

/-- The texts in parentheses with spaces between them say where they end. -/
theorem join (ends : EndsAtParenthesis related code) {c : Char} (opens : c ≠ ')') (left : Text) :
    EndsAtParenthesis (List.Forall₂ related) fun items =>
      Text.join [' '] (items.map fun item => c :: (left ++ (code item ++ [')']))) := by
  intro first second rest others same
  dsimp only at same
  cases first with
  | nil =>
    cases second with
    | nil => exact ⟨.nil, (List.cons.inj same).2⟩
    | cons item second =>
      rw [List.map_cons, Text.join_cons] at same
      exact absurd (List.cons.inj same).1.symm opens
  | cons item first =>
    cases second with
    | nil =>
      rw [List.map_cons, Text.join_cons] at same
      exact absurd (List.cons.inj same).1 opens
    | cons other second =>
      simp only [List.map_cons, Text.join_cons, List.flatMap_map, List.cons_append,
        List.append_assoc, List.nil_append] at same
      rcases ends (List.append_cancel_left (List.cons.inj same).2) with ⟨head, behind⟩
      rcases ends.flatMap (c :: left) behind with ⟨tail, rests⟩
      exact ⟨.cons head tail, rests⟩

end EndsAtParenthesis

theorem escape_append_ne_bracket (literal : Bool) (text : Text) {rest others : Text} {c : Char}
    (other : c ≠ '[') : escape literal text ++ c :: rest ≠ '[' :: others := by
  intro same
  cases spelled : escape literal text with
  | nil =>
    rw [spelled] at same
    exact other (List.cons.inj same).1
  | cons first behind =>
    rw [spelled, List.cons_append, List.cons.injEq] at same
    rw [same.1] at spelled
    exact escape_ne_bracket literal text behind spelled

namespace Clause

/-- The content of a clause says where it ends in front of a parenthesis. -/
theorem conditionText_append_inj {first second : Clause} {rest others : Text}
    (same : first.conditionText ++ ')' :: rest = second.conditionText ++ ')' :: others) :
    first.conditionText = second.conditionText ∧ rest = others := by
  cases firstRange : first.isRange with
  | false =>
    rw [conditionText_of_term firstRange] at same ⊢
    cases secondRange : second.isRange with
    | false =>
      rw [conditionText_of_term secondRange] at same ⊢
      exact escape_append_inj (by decide) (by decide) same
    | true =>
      rw [conditionText_of_range secondRange] at same
      exact absurd same (escape_append_ne_bracket _ _ (by decide))
  | true =>
    rw [conditionText_of_range firstRange] at same ⊢
    cases secondRange : second.isRange with
    | false =>
      rw [conditionText_of_term secondRange] at same
      exact absurd same.symm (escape_append_ne_bracket _ _ (by decide))
    | true =>
      rw [conditionText_of_range secondRange] at same ⊢
      simp only [List.cons_append, List.append_assoc, List.nil_append] at same
      have bounds := (List.cons.inj (List.cons.inj same).2).2
      rcases escape_append_inj (by decide) (by decide) bounds with ⟨lower, behind⟩
      rcases escape_append_inj (by decide) (by decide) (List.append_cancel_left behind) with
        ⟨upper, closed⟩
      rw [lower, upper]
      exact ⟨rfl, (List.cons.inj (List.cons.inj closed).2).2⟩

/-- A clause says where it ends in front of a parenthesis. -/
theorem endsAtParenthesis_text : EndsAtParenthesis Same text := by
  intro first second rest others same
  simp only [text, List.append_assoc, List.cons_append] at same
  rcases operator_append_inj same with ⟨negation, behind⟩
  rcases escape_append_inj (by decide) (by decide) behind with ⟨fields, conditions⟩
  rcases conditionText_append_inj conditions with ⟨condition, rests⟩
  refine ⟨?_, rests⟩
  rw [Same, text, text, negation, fields, condition]

/-- The text of a list is made of the clauses of its groups, each with two parentheses. -/
theorem listText_eq_join (clauses : List Clause) :
    listText clauses = Text.join [' '] ((groups clauses).map fun group =>
      '+' :: (['('] ++ (Text.join [' ']
        (group.map fun clause => '(' :: ([] ++ (clause.text ++ [')']))) ++ [')']))) := by
  rw [listText_eq]
  apply congrArg (Text.join [' '])
  apply List.map_congr_left
  intro group member
  rw [groupText_eq (ne_nil_of_mem_groups member)]
  rfl

/-- Lists are written alike only if their groups are the same, clause by clause. -/
theorem forall₂_grouped_of_listText_eq {first second : List Clause}
    (same : listText first = listText second) :
    List.Forall₂ Same (grouped first) (grouped second) := by
  have group := endsAtParenthesis_text.join (by decide : '(' ≠ ')') []
  have list := group.join (by decide : '+' ≠ ')') ['(']
  rw [listText_eq_join, listText_eq_join] at same
  exact List.rel_flatten (list (congrArg (· ++ [')']) same)).1

/-- Lists are written alike exactly when their groups are the same, clause by clause. -/
theorem listText_eq_listText_iff {first second : List Clause} :
    listText first = listText second ↔ List.Forall₂ Same (grouped first) (grouped second) := by
  constructor
  · exact forall₂_grouped_of_listText_eq
  · intro same
    rw [← listText_grouped first, ← listText_grouped second, listText_eq_of_same same]

/-! ## Interleavings -/

/-- The second list is the first one with clauses on different fields moved past each other. -/
inductive Interleaved : List Clause → List Clause → Prop
  | refl (clauses : List Clause) : Interleaved clauses clauses
  | trans {first second third : List Clause} (one : Interleaved first second)
      (two : Interleaved second third) : Interleaved first third
  | cons (clause : Clause) {first second : List Clause} (others : Interleaved first second) :
      Interleaved (clause :: first) (clause :: second)
  | swap {one two : Clause} (different : one.field ≠ two.field) (rest : List Clause) :
      Interleaved (one :: two :: rest) (two :: one :: rest)

theorem onField_cons (field : Text) (clause : Clause) (clauses : List Clause) :
    onField field (clause :: clauses) =
      if clause.field = field then clause :: onField field clauses else onField field clauses := by
  rw [onField, List.filter_cons]
  simp only [decide_eq_true_eq]
  rfl

/-- The clauses on one field are not moved past each other. -/
theorem Interleaved.onField_eq {first second : List Clause} (moved : Interleaved first second)
    (field : Text) : onField field first = onField field second := by
  induction moved with
  | refl clauses => rfl
  | trans _ _ one two => exact one.trans two
  | cons clause _ others => rw [onField_cons, onField_cons, others]
  | @swap one two different rest =>
    rw [onField_cons, onField_cons, onField_cons, onField_cons]
    by_cases same : one.field = field
    · have other : two.field ≠ field := fun twoSame => different (same.trans twoSame.symm)
      rw [if_pos same, if_neg other, if_neg other, if_pos same]
    · rw [if_neg same, if_neg same]

/-- A clause can be moved to the front past clauses on other fields. -/
theorem interleaved_to_front {clause : Clause} {before : List Clause}
    (different : ∀ other ∈ before, other.field ≠ clause.field) (after : List Clause) :
    Interleaved (before ++ clause :: after) (clause :: (before ++ after)) := by
  induction before with
  | nil => exact .refl _
  | cons other before ih =>
    have inside := ih fun later member => different later (List.mem_cons_of_mem _ member)
    exact (inside.cons other).trans (.swap (different other List.mem_cons_self) _)

/-- Lists with the same clauses on each field are the same but for how they are interleaved. -/
theorem exists_interleaved {first second : List Clause}
    (same : ∀ field, List.Forall₂ Same (onField field first) (onField field second)) :
    ∃ middle, Interleaved first middle ∧ List.Forall₂ Same middle second := by
  induction second generalizing first with
  | nil =>
    refine ⟨[], ?_, .nil⟩
    cases first with
    | nil => exact .refl _
    | cons clause first =>
      have found := same clause.field
      rw [onField_cons, if_pos rfl] at found
      cases found
  | cons clause second ih =>
    -- the first clause of the list on this field can be moved to the front of the list
    have found := same clause.field
    rw [onField_cons clause.field clause, if_pos rfl] at found
    rcases List.forall₂_cons_right_iff.1 found with ⟨partner, behind, alike, _, spelled⟩
    rcases List.filter_eq_cons_iff.1 spelled with ⟨before, after, rfl, others, _, _⟩
    have fields : partner.field = clause.field := (same_iff.1 alike).2.1
    have different : ∀ other ∈ before, other.field ≠ partner.field := by
      intro other member
      rw [fields]
      simpa using others other member
    have front := interleaved_to_front different after
    have rest : ∀ field, List.Forall₂ Same (onField field (before ++ after))
        (onField field second) := by
      intro field
      have whole := same field
      rw [front.onField_eq, onField_cons, onField_cons, fields] at whole
      split at whole
      · exact (List.forall₂_cons.1 whole).2
      · exact whole
    rcases ih rest with ⟨middle, moved, later⟩
    exact ⟨partner :: middle, front.trans (moved.cons partner), .cons alike later⟩

/-- Grouping forgets how clauses are interleaved, but for the order in which the fields are named
first. -/
theorem forall₂_grouped_iff {first second : List Clause} :
    List.Forall₂ Same (grouped first) (grouped second) ↔ fields first = fields second ∧
      ∃ middle, Interleaved first middle ∧ List.Forall₂ Same middle second := by
  constructor
  · intro same
    have named := map_eq_of_same (fun alike => (same_iff.1 alike).2.1) same
    refine ⟨?_, exists_interleaved fun field => ?_⟩
    · rw [← fields_grouped first, ← fields_grouped second, fields, fields, named]
    · rw [← onField_grouped field first, ← onField_grouped field second]
      exact onField_of_same same field
  · rintro ⟨sameFields, middle, moved, same⟩
    apply List.rel_flatten
    rw [groups, groups, sameFields, List.forall₂_map_left_iff, List.forall₂_map_right_iff,
      List.forall₂_same]
    intro field _
    rw [moved.onField_eq]
    exact onField_of_same same field

/-- Lists of clauses on named fields are written, and they are written alike exactly when they are
the same, clause by clause, in the order of their groups.  So only moving clauses on different
fields past each other does not change what is written, as long as the fields are first named in
the same order. -/
theorem toQuery_alike_iff {first second : List Clause}
    (firstNamed : ∀ clause ∈ first, clause.field ≠ [])
    (secondNamed : ∀ clause ∈ second, clause.field ≠ []) :
    ∃ text other, toQuery first = .ok text ∧ toQuery second = .ok other ∧
      (text = other ↔ List.Forall₂ Same (grouped first) (grouped second)) ∧
      (text = other ↔ fields first = fields second ∧
        ∃ middle, Interleaved first middle ∧ List.Forall₂ Same middle second) := by
  refine ⟨listText first, listText second, ?_, ?_, listText_eq_listText_iff, ?_⟩
  · exact toQuery_eq_ok_iff.2 ⟨firstNamed, rfl⟩
  · exact toQuery_eq_ok_iff.2 ⟨secondNamed, rfl⟩
  · rw [listText_eq_listText_iff, forall₂_grouped_iff]

/-- A clause may be moved past one on another field that was named before, but not past one on a
field that is named first there. -/
theorem toQuery_alike_of_moved :
    toQuery [⟨.is, ['p'], [')', ' ', '('], [], false⟩, ⟨.isNot, ['n'], ['1'], ['\\'], false⟩,
        ⟨.is, ['p'], ['b', '*'], [], true⟩] =
      toQuery [⟨.is, ['p'], [')', ' ', '('], [], false⟩, ⟨.is, ['p'], ['b', '*'], [], true⟩,
        ⟨.isNot, ['n'], ['1'], ['\\'], false⟩] ∧
    toQuery [⟨.is, ['p'], [')', ' ', '('], [], false⟩, ⟨.isNot, ['n'], ['1'], ['\\'], false⟩,
        ⟨.is, ['p'], ['b', '*'], [], true⟩] ≠
      toQuery [⟨.isNot, ['n'], ['1'], ['\\'], false⟩, ⟨.is, ['p'], [')', ' ', '('], [], false⟩,
        ⟨.is, ['p'], ['b', '*'], [], true⟩] := by
  let one : Clause := ⟨.is, ['p'], [')', ' ', '('], [], false⟩
  let two : Clause := ⟨.isNot, ['n'], ['1'], ['\\'], false⟩
  let three : Clause := ⟨.is, ['p'], ['b', '*'], [], true⟩
  have named : ∀ clause ∈ [one, two, three], clause.field ≠ [] := by decide
  constructor
  · have namedToo : ∀ clause ∈ [one, three, two], clause.field ≠ [] := by decide
    rcases toQuery_alike_iff named namedToo with ⟨text, other, written, writtenToo, _, alike⟩
    have moved : Interleaved [one, two, three] [one, three, two] :=
      .cons one (.swap (by decide) [])
    have same : text = other :=
      alike.2 ⟨by decide, _, moved, List.forall₂_same.2 fun clause _ => Same.refl clause⟩
    exact written.trans ((congrArg Except.ok same).trans writtenToo.symm)
  · have namedToo : ∀ clause ∈ [two, one, three], clause.field ≠ [] := by decide
    rcases toQuery_alike_iff named namedToo with ⟨text, other, written, writtenToo, _, alike⟩
    intro same
    have texts : text = other := Except.ok.inj (written.symm.trans (same.trans writtenToo))
    exact absurd (alike.1 texts).1 (by decide)

end Clause

end AlarmQuery
