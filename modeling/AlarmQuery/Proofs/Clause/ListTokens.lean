import AlarmQuery.Proofs.Clause.Grouping
import AlarmQuery.Proofs.Clause.Tokens

/-!
# The tokens of a written list of clauses

A list of clauses is written as its groups, each demanded and in parentheses, and a group as its
clauses, each in parentheses.  `scan_listText` says that the tokens are bracketed in the same way,
whatever is known of the tokens of single clauses.
-/

namespace AlarmQuery

/-! ## The tokens of lists -/

/-- The tokens of the alternatives of one group. -/
def GroupTokens (good : Clause → List (Placed Token) → Prop) (group : List Clause) :
    List (Placed Token) → Prop :=
  Concats (fun clause => Parenthesized (good clause)) group

/-- The tokens of a demanded group. -/
def DemandTokens (good : Clause → List (Placed Token) → Prop) (group : List Clause)
    (tokens : List (Placed Token)) : Prop :=
  ∃ plus enclosed, tokens = plus :: enclosed ∧ plus.value = .plus ∧
    Parenthesized (GroupTokens good group) enclosed

/-! ## Texts that are written part by part -/

/-- Texts between parentheses can be told apart. -/
theorem Text.join_enclosed (left right : Text) (texts : List Text) (nonempty : texts ≠ []) :
    left ++ join (right ++ ' ' :: left) texts ++ right =
      join [' '] (texts.map fun text => left ++ text ++ right) := by
  rcases List.exists_cons_of_ne_nil nonempty with ⟨text, others, rfl⟩
  clear nonempty
  induction others generalizing text with
  | nil => simp
  | cons other others ih =>
    have later := ih other
    simp only [List.map_cons, join_cons_cons] at later ⊢
    rw [← later]
    simp

theorem Clause.groupText_eq {group : List Clause} (nonempty : group ≠ []) :
    Clause.groupText group =
      Text.join [' '] (group.map fun clause => '(' :: (clause.text ++ [')'])) := by
  have joined := Text.join_enclosed ['('] [')'] (group.map Clause.text) (by simpa using nonempty)
  rw [List.map_map] at joined
  exact joined

theorem Clause.listText_eq (clauses : List Clause) :
    Clause.listText clauses = Text.join [' '] ((Clause.groups clauses).map fun group =>
      '+' :: '(' :: (Clause.groupText group ++ [')'])) := by
  rw [Clause.listText]
  cases found : Clause.groups clauses with
  | nil => rfl
  | cons group others =>
    have joined := Text.join_enclosed ['+', '('] [')'] ((group :: others).map Clause.groupText)
      (by simp)
    rw [List.map_map] at joined
    exact joined

/-! ## Scanning lists -/

/-- A list of clauses is scanned as its groups, and these as their clauses. -/
theorem scan_listText {good : Clause → List (Placed Token) → Prop} {clauses : List Clause}
    (each : ∀ clause ∈ clauses, ScannedAs clause.text (good clause)) :
    ∃ scanned, scan (Clause.listText clauses) = .ok scanned ∧
      Concats (DemandTokens good) (Clause.groups clauses) scanned.tokens := by
  rw [Clause.listText_eq]
  apply ScannedAs.scan
  apply scannedAs_join
  intro members present position rest ends
  have group : ScannedAs (Clause.groupText members) (GroupTokens good members) := by
    rw [Clause.groupText_eq (Clause.ne_nil_of_mem_groups present)]
    apply scannedAs_join
    intro clause member
    exact (each clause (Clause.mem_of_mem_groups present member)).enclose
  rcases group.enclose (position + 1) rest ends with ⟨tokens, scans, holds⟩
  have sign := scans_sign .is (by decide : isSpace '(' = false) position
    (Clause.groupText members ++ [')'] ++ rest)
  refine ⟨_, Scans.recount (sign.trans scans) ?_, ⟨.plus, position⟩, tokens, rfl, rfl, holds⟩
  simp only [List.length_append, List.length_cons, List.length_nil]
  omega

end AlarmQuery
