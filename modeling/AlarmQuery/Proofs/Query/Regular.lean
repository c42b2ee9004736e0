import AlarmQuery.Proofs.Query.Leaves
import AlarmQuery.Proofs.Query.Exact
import AlarmQuery.Proofs.Token.Written

/-!
# The shape of queries that come from a text

Not every tree is a query that some text stands for.  A group has members, a single member takes
part under an operator, groups nest no deeper than the parentheses that they were written in, and
what a condition keeps of its text can be written again.  Such trees are `Regular`.
-/

namespace AlarmQuery

/-! ## Conditions -/

/-- What the condition keeps as it was written can be written again. -/
def Condition.IsStored (field : Text) : Condition → Prop
  | .wildcard pattern => (field ≠ ['*'] ∧ pattern = ['*']) ∨ (Token.pattern pattern).IsStored
  | .regexp expression => (Token.regexp expression).IsStored
  | .fuzzy _ slop => (Token.slop slop).IsStored
  | .everything => field = ['*']
  | .term _ | .startsWith _ | .range .. => True

theorem isStored_of_wordCondition? {field : Text} {slop : Option Text} {token : Placed Token}
    {condition : Condition} (read : wordCondition? field slop token = some (.ok condition))
    (stored : token.value.IsStored)
    (measured : ∀ number, slop = some number → (Token.slop number).IsStored) :
    condition.IsStored field := by
  rw [wordCondition?] at read
  split at read
  · have same := Except.ok.inj (Option.some.inj read)
    split at same
    · rename_i anyField
      exact same ▸ anyField
    · rename_i named
      exact same ▸ Or.inl ⟨named, rfl⟩
  · obtain rfl := Except.ok.inj (Option.some.inj read)
    trivial
  · rcases exists_of_map_eq_ok (Option.some.inj read) with ⟨text, _, rfl⟩
    cases slop with
    | none => trivial
    | some number => exact measured number rfl
  · rcases exists_of_map_eq_ok (Option.some.inj read) with ⟨text, _, rfl⟩
    trivial
  · rename_i value
    obtain rfl := Except.ok.inj (Option.some.inj read)
    rw [value] at stored
    exact Or.inr stored
  · rename_i value
    obtain rfl := Except.ok.inj (Option.some.inj read)
    rw [value] at stored
    exact stored
  · cases read

/-! ## Trees -/

/-- The query has the shape of what texts are read as, with groups nested at most `depth` deep. -/
inductive Query.Regular : (depth : Nat) → Query → Prop
  | leaf {depth content} (stored : content.condition.IsStored content.field) :
      Regular depth (.leaf content)
  /-- A single member without an operator would be no group. -/
  | group {depth members} (nonempty : members ≠ []) (needed : ∀ query, members ≠ [(.should, query)])
      (each : ∀ member ∈ members, Regular depth member.2) : Regular (depth + 1) (.group members)
  | boosted {depth inner boost} (below : Regular depth inner) : Regular depth (.boosted inner boost)

namespace Query.Regular

variable {depth : Nat} {query : Query}

theorem mono {deeper : Nat} (regular : query.Regular depth) (less : depth ≤ deeper) :
    query.Regular deeper := by
  induction regular generalizing deeper with
  | leaf stored => exact .leaf stored
  | group nonempty needed _ ih =>
    cases deeper with
    | zero => exact absurd less (Nat.not_succ_le_zero _)
    | succ deeper =>
      exact .group nonempty needed fun member inside =>
        ih member inside (Nat.le_of_succ_le_succ less)
  | boosted _ ih => exact .boosted (ih less)

theorem boostedBy (regular : query.Regular depth) (boost : Option Boost) :
    (query.boostedBy boost).Regular depth := by
  cases boost with
  | none => exact regular
  | some boost => exact .boosted regular

/-- A sequence is a regular group, unless it is a single clause. -/
theorem assemble {first : Part} {others : List Part}
    (each : ∀ part ∈ first :: others, part.query.Regular depth) :
    (AlarmQuery.assemble first others).Regular (depth + 1) := by
  rw [AlarmQuery.assemble]
  split
  · exact (each first List.mem_cons_self).mono (Nat.le_succ depth)
  · rename_i grouped
    have queries := map_snd_groupMembers (first :: others)
    refine .group ?_ ?_ ?_
    · intro empty
      rw [empty] at queries
      cases queries
    · intro query single
      rw [single, List.map_cons] at queries
      obtain rfl : others = [] := List.map_eq_nil_iff.1 (List.cons.inj queries).2.symm
      have alone : groupMembers [first] = [(first.occur, first.query)] := by
        simp [groupMembers, addPart]
      have occur : first.occur = .should :=
        congrArg Prod.fst (List.cons.inj (alone.symm.trans single)).1
      rw [Part.occur] at occur
      cases modifier : first.modifier with
      | none => exact grouped (by simp [modifier])
      | required =>
        rw [modifier] at occur
        cases occur
      | prohibited =>
        rw [modifier] at occur
        cases occur
    · intro member inside
      rcases exists_part_of_mem_groupMembers inside with ⟨part, present, same⟩
      exact same ▸ each part present

end Query.Regular

/-- What a phrase stands for is regular.  A sequence may be a group of its own. -/
def Phrase.Regular (budget : Nat) : Phrase → Prop
  | .body query => query.Regular budget
  | .clause query => query.Regular budget
  | .parts others => ∀ part ∈ others, part.query.Regular budget
  | .sequence query => query.Regular (budget + 1)

theorem isStored_of_wordSuffixes {suffix : Tokens} {slop number : Option Text}
    (suffixes : suffix.map Placed.value ∈ wordSuffixes slop number)
    (stored : ∀ token ∈ suffix, token.value.IsStored) :
    ∀ text, slop = some text → (Token.slop text).IsStored := by
  rintro text rfl
  have listed : Token.slop text ∈ suffix.map Placed.value := by
    simp only [wordSuffixes, List.mem_cons, List.not_mem_nil, or_false] at suffixes
    rcases suffixes with same | same
    · rw [same]
      exact List.mem_append_left _ List.mem_cons_self
    · rw [same]
      exact List.mem_append_right _ List.mem_cons_self
  rcases List.mem_map.1 listed with ⟨token, member, value⟩
  exact value ▸ stored token member

/-- What tokens spell is regular if they can be written again, by induction on the spelling. -/
theorem Spells.regular {budget : Nat} {field : Text} {tokens : Tokens} {phrase : Phrase}
    (spelled : Spells budget field tokens phrase)
    (stored : ∀ token ∈ tokens, token.value.IsStored) : phrase.Regular budget := by
  induction spelled with
  | word read suffixes =>
    rw [List.forall_mem_cons] at stored
    have measured := isStored_of_wordSuffixes suffixes stored.2
    have kept := isStored_of_wordCondition? read stored.1 measured
    exact (Query.Regular.leaf kept).boostedBy _
  | quoted _ _ _ =>
    refine Query.Regular.boostedBy (.leaf ?_) _
    trivial
  | range _ read _ =>
    rcases exists_of_rangeCondition read with ⟨lower, upper, rfl⟩
    refine Query.Regular.boostedBy (.leaf ?_) _
    trivial
  | parentheses _ _ _ _ ih =>
    have inner := (List.forall_mem_append.1 (List.forall_mem_cons.1 stored).2).1
    exact (ih inner).boostedBy _
  | unnamed _ ih => exact ih stored
  | named _ _ _ ih =>
    exact ih (List.forall_mem_cons.1 (List.forall_mem_cons.1 stored).2).2
  | done => exact fun _ absent => absurd absent List.not_mem_nil
  | part _ _ _ _ clause rest =>
    rw [List.forall_mem_append, List.forall_mem_append, List.forall_mem_append] at stored
    exact List.forall_mem_cons.2 ⟨clause stored.2.2.1, rest stored.2.2.2⟩
  | sequence _ _ _ clause rest =>
    rw [List.forall_mem_append, List.forall_mem_append] at stored
    exact Query.Regular.assemble
      (List.forall_mem_cons.2 ⟨clause stored.2.1, rest stored.2.2⟩)

theorem Query.regular_of_parse {text field : Text} {query : Query}
    (parsed : Query.parse text field = .ok query) : query.Regular (maxNesting + 1) := by
  rcases Query.parse_eq_ok_iff.1 parsed with ⟨scanned, scans, spelled⟩
  exact spelled.regular (isStored_of_scanFrom scans)

end AlarmQuery
