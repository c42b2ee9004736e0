import AlarmQuery.Proofs.Clause.Provenance
import AlarmQuery.Proofs.Clause.RoundTrip

/-!
# Which lists come back unchanged

A list of clauses on named fields is read back unchanged exactly when each of its clauses is
supported.  For the others the query that is read is another one: a stray space splits a word, a
star on every field is no clause, and a range forgets that its wildcards were literal.
-/

namespace AlarmQuery

namespace Clause

theorem leaves_alternatives (queries : List Query) :
    (alternatives queries).leaves = queries.flatMap Query.leaves := by
  rw [alternatives.eq_def]
  split
  · simp
  · rw [Query.leaves, memberLeaves_eq, List.flatMap_map]

theorem leaves_listQuery (clauses : List Clause) :
    (listQuery clauses).leaves = (grouped clauses).map leaf := by
  have single (group : List Clause) : (alternatives (group.map query)).leaves = group.map leaf := by
    rw [leaves_alternatives, List.flatMap_map]
    exact List.flatMap_pure_eq_map leaf group
  rw [listQuery, Query.leaves, memberLeaves_eq, List.flatMap_map, grouped, List.map_flatten,
    List.flatMap]
  exact congrArg List.flatten (List.map_congr_left fun group _ => single group)

/-- A written list has conditions that are clauses unless one matches everything. -/
theorem valued_listQuery_iff {clauses : List Clause} :
    (listQuery clauses).Valued ↔ ∀ clause ∈ clauses, ¬ clause.MatchesAll := by
  rw [Query.Valued, leaves_listQuery, List.forall_mem_map]
  constructor
  · intro valued clause member all
    rcases valued clause (mem_grouped.2 member) with ⟨back, negation, impossible⟩
    rw [ofLeaf_leaf_of_matchesAll all] at impossible
    cases impossible
  · intro listable clause member
    exact ⟨clause.asRead, clause.negation, ofLeaf_leaf (listable clause (mem_grouped.1 member))⟩

section

variable {clauses found : List Clause} {field : Text} {query : Query}

/-- A written list that is a query was scanned as its clauses, and derived from their tokens. -/
theorem exists_of_parse_listText (named : ∀ clause ∈ clauses, clause.field ≠ [])
    (parsed : Query.parse (listText clauses) field = .ok query) :
    ∃ scanned : Scanned, Concats (DemandTokens ClauseTokens) (groups clauses) scanned.tokens ∧
      Derives maxNesting field scanned.tokens (.sequence query) := by
  rcases scan_listText fun clause member => scannedAs_clause (named clause member) with
    ⟨scanned, scans, tokens⟩
  refine ⟨scanned, tokens, derives_of_ofTokens ?_⟩
  rw [Query.parse, scans] at parsed
  exact parsed

theorem term_ne_nil_of_parse_listText (named : ∀ clause ∈ clauses, clause.field ≠ [])
    (parsed : Query.parse (listText clauses) field = .ok query) :
    ∀ clause ∈ clauses, clause.isRange = false → clause.term ≠ [] := by
  intro clause member term empty
  rcases exists_of_parse_listText named parsed with ⟨scanned, tokens, derived⟩
  exact not_followed_list tokens member term empty derived.followed

theorem listable_of_valued (nonempty : clauses ≠ [])
    (readable : ∀ clause ∈ clauses, clause.Readable)
    (parsed : Query.parse (listText clauses) field = .ok query) (valued : query.Valued) :
    ∀ clause ∈ clauses, ¬ clause.MatchesAll := by
  rw [parse_listText nonempty readable] at parsed
  rw [← Except.ok.inj parsed] at valued
  exact valued_listQuery_iff.1 valued

/-- Clauses that come back the same have fields and contents that a query can hold. -/
theorem readable_of_same (named : ∀ clause ∈ clauses, clause.field ≠ [])
    (parsed : Query.parse (listText clauses) field = .ok query)
    (read : ofQuery query = .ok found) (same : List.Forall₂ Same found (grouped clauses)) :
    ∀ clause ∈ clauses, clause.Readable := by
  intro clause member
  have yields := forall₂_leaves_of_ofQuery read
  rcases exists_of_parse_listText named parsed with ⟨scanned, tokens, derived⟩
  have givesUnbroken := givesUnbroken_list tokens
  -- there are as many colons as leaves, and each names the field of a leaf of its own
  have counted : countColons scanned.tokens = query.leaves.length := by
    rw [countColons_list tokens, yields.length_eq, same.length_eq]
  have fields : ∀ leaf ∈ query.leaves, Unbroken leaf.field := by
    have unbroken : ∀ token ∈ scanned.tokens, ∀ name, Names token name →
        decide (Unbroken name) = true := fun token inside name names =>
      decide_eq_true ((givesUnbroken token inside).name names)
    have bound := derived.countColons_le (followed_list tokens) unbroken List.infix_rfl
    have all := Nat.le_antisymm List.countP_le_length (counted ▸ bound)
    intro leaf inside
    exact of_decide_eq_true (List.countP_eq_length.1 all leaf inside)
  rcases exists_mem_left same (mem_grouped.2 member) with ⟨back, inFound, sameBack⟩
  rcases exists_mem_left yields inFound with ⟨leaf, inLeaves, yieldsBack⟩
  rcases same_iff.1 sameBack with ⟨_, sameField, sameTerm, sameUpTo, _⟩
  refine ⟨named clause member, ?_, ?_⟩
  · rw [← sameField, yieldsBack.field_eq]
    exact fields leaf inLeaves
  · intro term
    refine ⟨term_ne_nil_of_parse_listText named parsed clause member term, ?_⟩
    rcases derived.exists_denotes leaf inLeaves with ⟨token, inTokens, slop, denotes⟩
    have backTerm : back.isRange = false := by
      rw [isRange, sameUpTo]
      exact term
    rw [← sameTerm]
    exact (givesUnbroken token inTokens).term denotes yieldsBack backTerm

theorem supported_of_same (named : ∀ clause ∈ clauses, clause.field ≠ [])
    (read : parseList (listText clauses) field = .ok found)
    (same : List.Forall₂ Same found (grouped clauses)) :
    ∀ clause ∈ clauses, clause.Supported := by
  intro clause member
  have nonempty := List.ne_nil_of_mem member
  rcases (parseList_eq_ok_iff (listText_not_blank nonempty)).1 read with ⟨query, parsed, clausesOf⟩
  have readable := readable_of_same named parsed clausesOf same
  have listable := listable_of_valued nonempty readable parsed (valued_of_ofQuery clausesOf)
  rw [parseList_listText readable listable, Except.ok.injEq] at read
  rw [← read, List.forall₂_map_left_iff, List.forall₂_same] at same
  exact ⟨readable clause member, listable clause member,
    same_asRead_iff.1 (same clause (mem_grouped.2 member))⟩

theorem same_of_supported (supported : ∀ clause ∈ clauses, clause.Supported)
    (read : parseList (listText clauses) field = .ok found) :
    List.Forall₂ Same found (grouped clauses) := by
  rw [parseList_listText (fun clause member => (supported clause member).toReadable)
    (fun clause member => (supported clause member).listable), Except.ok.injEq] at read
  rw [← read]
  exact forall₂_same_asRead fun clause member => supported clause (mem_grouped.1 member)

end

/-- A list of clauses on named fields that is read back at all comes back unchanged, in the order
of its groups, exactly when all its clauses are supported. -/
theorem same_iff_supported_of_read {clauses found : List Clause} {field text : Text}
    (written : toQuery clauses = .ok text) (read : parseList text field = .ok found) :
    found.length = clauses.length ∧ List.Forall₂ Same found (grouped clauses) ↔
      ∀ clause ∈ clauses, clause.Supported := by
  rcases toQuery_eq_ok_iff.1 written with ⟨named, rfl⟩
  constructor
  · rintro ⟨_, same⟩
    exact supported_of_same named read same
  · intro supported
    have same := same_of_supported supported read
    refine ⟨?_, same⟩
    rw [same.length_eq, (grouped_perm clauses).length_eq]

/-- A tab at the end of a term is lost. -/
theorem changed_of_final_tab :
    toQuery [⟨.is, ['f'], ['a', '\t'], [], false⟩] = .ok "+((+f:a\t))".toList ∧
      parseList "+((+f:a\t))".toList ['d'] = .ok [⟨.is, ['f'], ['a'], [], true⟩] ∧
      ¬ List.Forall₂ Same [⟨.is, ['f'], ['a'], [], true⟩]
        (grouped [⟨.is, ['f'], ['a', '\t'], [], false⟩]) := by
  have written : toQuery [⟨.is, ['f'], ['a', '\t'], [], false⟩] = .ok "+((+f:a\t))".toList := by
    cbv
  have read : parseList "+((+f:a\t))".toList ['d'] = .ok [⟨.is, ['f'], ['a'], [], true⟩] :=
    eq_ok_of_toOption (by decide +kernel)
  refine ⟨written, read, ?_⟩
  intro same
  have supported := (same_iff_supported_of_read written read).1 ⟨rfl, same⟩
  exact absurd (supported _ List.mem_cons_self) (by decide)

end Clause

end AlarmQuery
