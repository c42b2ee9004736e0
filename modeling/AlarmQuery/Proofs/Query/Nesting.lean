import AlarmQuery.Proofs.Query.Accepted
import AlarmQuery.Proofs.Query.Exact
import AlarmQuery.Proofs.Query.Faults

/-!
# How deep queries nest

While a query is read, the budget that is spent is the number of parentheses that are open.  Here
this number is read off the tokens alone, as the excess of the opening parentheses over the closing
ones, and what the readers say about nesting is said in its terms: the fault is placed at the first
parenthesis in front of which too many are open, and without such a parenthesis there is none.  What
is accepted nests within its budget, and so do the paths of the tree that it becomes.
-/

namespace AlarmQuery

/-! ## Open parentheses -/

/-- How many more parentheses open than close. -/
def excess (tokens : Tokens) : Int :=
  (tokens.countP fun token => token.value = .openParen : Nat) -
    (tokens.countP fun token => token.value = .closeParen : Nat)

/-- In front of every parenthesis that opens, fewer than `depth` are open. -/
def NestsWithin (depth : Int) (tokens : Tokens) : Prop :=
  ∀ before opening after, tokens = before ++ opening :: after → opening.value = .openParen →
    excess before < depth

/-- None of the tokens is a parenthesis. -/
def Flat (tokens : Tokens) : Prop :=
  ∀ token ∈ tokens, token.value ≠ .openParen ∧ token.value ≠ .closeParen

@[simp]
theorem excess_nil : excess [] = 0 := rfl

@[simp]
theorem excess_append (first second : Tokens) :
    excess (first ++ second) = excess first + excess second := by
  simp only [excess, List.countP_append, Int.natCast_add]
  omega

theorem excess_open {opening : Placed Token} (opens : opening.value = .openParen) :
    excess [opening] = 1 := by
  simp [excess, opens]

theorem excess_close {closing : Placed Token} (closes : closing.value = .closeParen) :
    excess [closing] = -1 := by
  simp [excess, closes]

theorem nestsWithin_nil (depth : Int) : NestsWithin depth [] := by
  intro before opening after split
  cases before <;> cases split

theorem NestsWithin.mono {depth deeper : Int} {tokens : Tokens} (nests : NestsWithin depth tokens)
    (less : depth ≤ deeper) : NestsWithin deeper tokens :=
  fun before opening after split opens =>
    Int.lt_of_lt_of_le (nests before opening after split opens) less

/-- What stands behind other tokens may nest as deep as they leave room. -/
theorem nestsWithin_append {depth : Int} {first second : Tokens} :
    NestsWithin depth (first ++ second) ↔
      NestsWithin depth first ∧ NestsWithin (depth - excess first) second := by
  constructor
  · intro nests
    constructor
    · rintro before opening after rfl opens
      exact nests before opening (after ++ second) (by simp) opens
    · rintro before opening after rfl opens
      have within := nests (first ++ before) opening after (by simp) opens
      rw [excess_append] at within
      omega
  · rintro ⟨inFirst, inSecond⟩ before opening after split opens
    rcases List.append_eq_append_iff.1 split with ⟨middle, rfl, behind⟩ | ⟨middle, same, behind⟩
    · have within := inSecond middle opening after behind opens
      rw [excess_append]
      omega
    · cases middle with
      | nil =>
        have within := inSecond [] opening after behind.symm opens
        rw [List.append_nil] at same
        rw [← same]
        simpa using within
      | cons token middle =>
        rw [List.cons_append, List.cons.injEq] at behind
        rcases behind with ⟨rfl, rfl⟩
        exact inFirst before opening middle same opens

theorem nestsWithin_singleton {depth : Int} {token : Placed Token}
    (room : token.value = .openParen → 0 < depth) : NestsWithin depth [token] := by
  intro before opening after split opens
  cases before with
  | nil =>
    rw [List.nil_append, List.cons.injEq] at split
    exact room (split.1 ▸ opens)
  | cons head before =>
    cases before <;> cases split

/-- Tokens nest no deeper than there are tokens. -/
theorem nestsWithin_length (tokens : Tokens) : NestsWithin tokens.length tokens := by
  rintro before opening after rfl _
  have most : before.countP (fun token => token.value = .openParen) ≤ before.length :=
    List.countP_le_length
  rw [excess, List.length_append, List.length_cons]
  omega

namespace Flat

variable {first second : Tokens}

theorem append (one : Flat first) (two : Flat second) : Flat (first ++ second) :=
  List.forall_mem_append.2 ⟨one, two⟩

theorem excess_eq_zero (flat : Flat first) : excess first = 0 := by
  have opens : first.countP (fun token => token.value = .openParen) = 0 := by
    rw [List.countP_eq_zero]
    exact fun token member => by simpa using (flat token member).1
  have closes : first.countP (fun token => token.value = .closeParen) = 0 := by
    rw [List.countP_eq_zero]
    exact fun token member => by simpa using (flat token member).2
  rw [excess, opens, closes]
  rfl

theorem nestsWithin (flat : Flat first) (depth : Int) : NestsWithin depth first := by
  rintro before opening after rfl opens
  exact absurd opens (flat opening (by simp)).1

end Flat

/-! ## Phrases -/

/-- Every parenthesis closes again, and in front of none too many are open. -/
structure Balanced (depth : Int) (tokens : Tokens) : Prop where
  excess_eq : excess tokens = 0
  nests : NestsWithin depth tokens

theorem Flat.balanced {tokens : Tokens} (flat : Flat tokens) (depth : Int) :
    Balanced depth tokens :=
  ⟨flat.excess_eq_zero, flat.nestsWithin depth⟩

namespace Balanced

variable {depth : Int} {first second : Tokens}

theorem append (one : Balanced depth first) (two : Balanced depth second) :
    Balanced depth (first ++ second) := by
  constructor
  · rw [excess_append, one.excess_eq, two.excess_eq]
    rfl
  · rw [nestsWithin_append, one.excess_eq, Int.sub_zero]
    exact ⟨one.nests, two.nests⟩

theorem enclose {opening closing : Placed Token} (balanced : Balanced depth first)
    (opens : opening.value = .openParen) (closes : closing.value = .closeParen)
    (positive : 0 ≤ depth) : Balanced (depth + 1) ([opening] ++ (first ++ [closing])) := by
  have closesNone : closing.value ≠ .openParen := closes.trans_ne Token.noConfusion
  constructor
  · rw [excess_append, excess_append, excess_open opens, excess_close closes, balanced.excess_eq]
    rfl
  · rw [nestsWithin_append, nestsWithin_append, excess_open opens, Int.add_sub_cancel]
    refine ⟨nestsWithin_singleton fun _ => by omega, balanced.nests, ?_⟩
    exact nestsWithin_singleton fun impossible => absurd impossible closesNone

end Balanced

section

variable {budget : Nat} {field : Text} {tokens : Tokens} {phrase : Phrase}

theorem flat_of_isSuffix {suffix : Tokens} (suffixes : ∀ mark ∈ suffix, mark.value.IsSuffix) :
    Flat suffix := by
  intro mark member
  rcases suffixes mark member with ⟨number, value⟩ | ⟨number, value⟩
  all_goals exact ⟨value.trans_ne Token.noConfusion, value.trans_ne Token.noConfusion⟩

theorem flat_of_joint {conjunction : Conjunction} {joint : Tokens}
    (joins : joint.map Placed.value ∈ conjunction.spellings) : Flat joint := by
  have listed : ∀ values ∈ conjunction.spellings, ∀ value ∈ values,
      value ≠ Token.openParen ∧ value ≠ Token.closeParen := by
    cases conjunction <;> decide
  exact fun token member => listed _ joins _ (List.mem_map_of_mem member)

theorem flat_of_sign {modifier : Modifier} {sign : Tokens}
    (modifies : sign.map Placed.value ∈ modifier.spellings) : Flat sign := by
  have listed : ∀ values ∈ modifier.spellings, ∀ value ∈ values,
      value ≠ Token.openParen ∧ value ≠ Token.closeParen := by
    cases modifier <;> decide
  exact fun token member => listed _ modifies _ (List.mem_map_of_mem member)

theorem flat_of_names {token colon : Placed Token} {name : Text} (names : Names token name)
    (separates : colon.value = .colon) : Flat [token, colon] := by
  refine List.forall_mem_cons.2 ⟨⟨names.ne_mark (by decide), names.ne_mark (by decide)⟩, ?_⟩
  refine List.forall_mem_singleton.2 ⟨?_, ?_⟩
  · exact separates.trans_ne Token.noConfusion
  · exact separates.trans_ne Token.noConfusion

/-- What is derived within a budget is balanced within it. -/
theorem Derives.balanced (derived : Derives budget field tokens phrase) :
    Balanced budget tokens := by
  induction derived with
  | operand meaning suffixes =>
    refine Flat.balanced (List.forall_mem_cons.2 ⟨?_, flat_of_isSuffix suffixes⟩) _
    exact ⟨meaning.ne_mark (by decide), meaning.ne_mark (by decide)⟩
  | @parentheses budget _ opening content closing suffix _ _ opens _ closes suffixes ih =>
    have enclosed := (ih.enclose opens closes (Int.natCast_nonneg budget)).append
      ((flat_of_isSuffix suffixes).balanced _)
    simpa using enclosed
  | unnamed _ ih => exact ih
  | named names separates _ ih => exact ((flat_of_names names separates).balanced _).append ih
  | done => exact ⟨rfl, nestsWithin_nil _⟩
  | part joins modifies _ _ clause rest =>
    exact ((flat_of_joint joins).balanced _).append
      (((flat_of_sign modifies).balanced _).append (clause.append rest))
  | sequence modifies _ _ clause rest =>
    exact ((flat_of_sign modifies).balanced _).append (clause.append rest)

/-- The budget of a spelling is no more than what its tokens ask for, by induction on the
spelling. -/
theorem Spells.withBudget (spelled : Spells budget field tokens phrase) {depth : Nat}
    (nests : NestsWithin depth tokens) : Spells depth field tokens phrase := by
  induction spelled generalizing depth with
  | word read suffixes => exact .word read suffixes
  | quoted value read suffixes => exact .quoted value read suffixes
  | range value read suffixes => exact .range value read suffixes
  | @parentheses _ _ opening content closing suffix _ _ opens _ closes suffixes ih =>
    have room := nests [] opening (content ++ closing :: suffix) rfl opens
    have inner := (nestsWithin_append.1 (nestsWithin_append.1
      (show NestsWithin depth ([opening] ++ (content ++ closing :: suffix)) from nests)).2).1
    cases depth with
    | zero => exact absurd room (by simp)
    | succ depth =>
      rw [excess_open opens, Int.natCast_succ, Int.add_sub_cancel] at inner
      exact .parentheses opens (ih inner) closes suffixes
  | unnamed _ ih => exact .unnamed (ih nests)
  | @named _ _ _ token colon tokens _ names separates _ ih =>
    have inner := (nestsWithin_append.1
      (show NestsWithin depth ([token, colon] ++ tokens) from nests)).2
    rw [(flat_of_names names separates).excess_eq_zero, Int.sub_zero] at inner
    exact .named names separates (ih inner)
  | done => exact .done
  | part joins modifies first _ clause rest =>
    rw [nestsWithin_append, nestsWithin_append, nestsWithin_append,
      (flat_of_joint joins).excess_eq_zero, (flat_of_sign modifies).excess_eq_zero,
      first.derives.balanced.excess_eq] at nests
    simp only [Int.sub_zero] at nests
    exact .part joins modifies (clause nests.2.2.1) (rest nests.2.2.2)
  | sequence modifies first _ clause rest =>
    rw [nestsWithin_append, nestsWithin_append, (flat_of_sign modifies).excess_eq_zero,
      first.derives.balanced.excess_eq] at nests
    simp only [Int.sub_zero] at nests
    exact .sequence modifies (clause nests.2.1) (rest nests.2.2)

end

/-! ## The fault -/

/-- The place of the first parenthesis in front of which `depth` or more are open. -/
def FirstBeyond (depth : Int) (tokens : Tokens) (place : Nat) : Prop :=
  ∃ before opening after, tokens = before ++ opening :: after ∧ opening.value = .openParen ∧
    opening.position = place ∧ depth ≤ excess before ∧ NestsWithin depth before

theorem FirstBeyond.behind {depth : Int} {first rest : Tokens} {place : Nat}
    (found : FirstBeyond (depth - excess first) rest place) (nests : NestsWithin depth first) :
    FirstBeyond depth (first ++ rest) place := by
  rcases found with ⟨before, opening, after, rfl, opens, there, beyond, within⟩
  refine ⟨first ++ before, opening, after, by simp, opens, there, ?_, ?_⟩
  · rw [excess_append]
    omega
  · exact nestsWithin_append.2 ⟨nests, within⟩

theorem FirstBeyond.behind_balanced {depth : Int} {first rest : Tokens} {place : Nat}
    (found : FirstBeyond depth rest place) (balanced : Balanced depth first) :
    FirstBeyond depth (first ++ rest) place := by
  apply FirstBeyond.behind _ balanced.nests
  rwa [balanced.excess_eq, Int.sub_zero]

/-- Within a depth there is no such parenthesis. -/
theorem not_firstBeyond {depth : Int} {tokens : Tokens} (nests : NestsWithin depth tokens)
    (place : Nat) : ¬ FirstBeyond depth tokens place := by
  rintro ⟨before, opening, after, split, opens, _, beyond, _⟩
  have within := nests before opening after split opens
  omega

/-- A reading that fails for its nesting does so at the first parenthesis beyond the depth. -/
def Reading.Guarded {α : Type} (depth : Int) (tokens : Tokens) (reading : Reading α) : Prop :=
  ∀ {place}, reading = .error ⟨.nestedTooDeeply, place⟩ → FirstBeyond depth tokens place

theorem unescapeAt_ne_nested (position : Nat) (text : Text) (place : Nat) :
    unescapeAt position text ≠ .error ⟨.nestedTooDeeply, place⟩ := by
  intro refused
  rcases fault_of_unescapeAt refused with ⟨inner, _, impossible⟩
  cases impossible

theorem unexpected_ne_nested (stop : Nat) (expected : Expectation) (tokens : Tokens)
    (place : Nat) : unexpected stop expected tokens ≠ ⟨.nestedTooDeeply, place⟩ := by
  intro impossible
  cases tokens <;> cases impossible

theorem guarded_readOperand (stop : Nat) (field : Text) (depth : Int) (tokens : Tokens) :
    (readOperand stop field tokens).Guarded depth tokens := by
  intro place refused
  cases tokens with
  | nil => exact absurd (Except.error.inj refused) (unexpected_ne_nested _ _ _ _)
  | cons token rest =>
    rw [readOperand] at refused
    split at refused
    · exact absurd (eq_error_of_map_eq_error refused) (unescapeAt_ne_nested _ _ _)
    · rcases fault_of_rangeCondition (eq_error_of_map_eq_error refused) with failed | failed
      · exact absurd failed (unescapeAt_ne_nested _ _ _)
      · exact absurd failed (unescapeAt_ne_nested _ _ _)
    · dsimp only at refused
      split at refused
      · exact absurd (Except.error.inj refused) (unexpected_ne_nested _ _ _ _)
      · rename_i condition found
        rw [eq_error_of_map_eq_error refused] at found
        rcases fault_of_wordCondition? found with ⟨piece, _, failed⟩
        exact absurd failed (unescapeAt_ne_nested _ _ _)

section Readers

variable {stop budget : Nat} {field : Text} {reader : Reader Query}

/-- The clauses behind the first one, by induction on the tokens that are left. -/
theorem guarded_readParts
    (sound : ∀ tokens, (reader.run tokens).Spelled budget field .clause tokens)
    (guarded : ∀ tokens, (reader.run tokens).Guarded budget tokens)
    (tokens : Tokens) : (readParts reader tokens).Guarded budget tokens := by
  intro place refused
  have before (tokens : Tokens) : ∃ marks,
      tokens = marks ++ (takeModifier (takeConjunction tokens).2).2 ∧ Flat marks := by
    rcases spelled_takeConjunction tokens with ⟨joint, splitJoint, joins⟩
    rcases spelled_takeModifier (takeConjunction tokens).2 with ⟨sign, splitSign, modifies⟩
    refine ⟨joint ++ sign, ?_, (flat_of_joint joins).append (flat_of_sign modifies)⟩
    rw [List.append_assoc, ← splitSign, ← splitJoint]
  fun_induction readParts reader tokens with
  | case1 tokens _ conjunction modifier fault failed =>
    rcases before tokens with ⟨marks, split, flat⟩
    rw [Except.error.inj refused] at failed
    rw [split]
    exact (guarded _ failed).behind_balanced (flat.balanced _)
  | case2 tokens _ conjunction modifier query rest read later =>
    rcases before tokens with ⟨marks, split, flat⟩
    rcases sound _ read with ⟨taken, splitClause, clause⟩
    have there := later (eq_error_of_map_eq_error refused)
    rw [split, splitClause]
    exact (there.behind_balanced clause.derives.balanced).behind_balanced (flat.balanced _)
  | case3 => cases refused

theorem guarded_readSequence
    (sound : ∀ tokens, (reader.run tokens).Spelled budget field .clause tokens)
    (guarded : ∀ tokens, (reader.run tokens).Guarded budget tokens)
    (tokens : Tokens) : (readSequence reader tokens).Guarded budget tokens := by
  intro place refused
  rcases spelled_takeModifier tokens with ⟨sign, split, modifies⟩
  have flat := flat_of_sign modifies
  rw [readSequence] at refused
  rw [split]
  split at refused
  · rename_i fault failed
    exact (guarded _ (failed.trans refused)).behind_balanced (flat.balanced _)
  · rename_i query rest read
    rcases sound _ read with ⟨taken, splitClause, clause⟩
    have there := guarded_readParts sound guarded rest (eq_error_of_map_eq_error refused)
    rw [splitClause]
    exact (there.behind_balanced clause.derives.balanced).behind_balanced (flat.balanced _)

theorem guarded_readBody
    (guarded : ∀ smaller, budget = smaller + 1 → ∀ field tokens,
      ((queryReader stop smaller field).run tokens).Guarded smaller tokens)
    (field : Text) (tokens : Tokens) :
    (readBody stop (innerReader? stop budget) field tokens).Guarded budget tokens := by
  intro place refused
  cases tokens with
  | nil => exact guarded_readOperand stop field _ [] refused
  | cons opening following =>
    rw [readBody.eq_def] at refused
    dsimp only at refused
    split at refused
    · rename_i opens
      cases budget with
      | zero =>
        -- no budget is left, and this parenthesis is the first one
        have there := Except.error.inj refused
        simp only [Placed.mk.injEq, true_and] at there
        exact ⟨[], opening, following, rfl, opens, there, Int.le_refl 0, nestsWithin_nil _⟩
      | succ smaller =>
        simp only [innerReader?] at refused
        split at refused
        · rename_i fault failed
          have inner := guarded smaller rfl field following (failed.trans refused)
          have within : NestsWithin ((smaller + 1 : Nat) : Int) [opening] :=
            nestsWithin_singleton fun _ => Int.natCast_pos.2 (Nat.succ_pos smaller)
          refine FirstBeyond.behind ?_ within
          rw [excess_open opens, Int.natCast_succ, Int.add_sub_cancel]
          exact inner
        · split at refused
          · exact absurd (Except.error.inj refused) (unexpected_ne_nested _ _ _ _)
          · split at refused
            · cases refused
            · exact absurd (Except.error.inj refused) (unexpected_ne_nested _ _ _ _)
    · exact guarded_readOperand stop field _ (opening :: following) refused

theorem guarded_readClause
    (guarded : ∀ field tokens,
      (readBody stop (innerReader? stop budget) field tokens).Guarded budget tokens)
    (field : Text) (tokens : Tokens) :
    (readClause stop (innerReader? stop budget) field tokens).Guarded budget tokens := by
  intro place refused
  rw [readClause] at refused
  split at refused
  · exact guarded field tokens refused
  · rename_i fault rest taken
    rw [Except.error.inj refused] at taken
    rcases fault_of_takeField? taken with ⟨token, _, word, _, failed⟩
    exact absurd failed (unescapeAt_ne_nested _ _ _)
  · rename_i name rest taken
    rcases names_of_takeField? taken with ⟨token, colon, rfl, names, separates⟩
    exact (guarded name rest refused).behind_balanced
      ((flat_of_names names separates).balanced _)

/-- Within any budget, by induction on it. -/
theorem guarded_queryReader (stop budget : Nat) (field : Text) (tokens : Tokens) :
    ((queryReader stop budget field).run tokens).Guarded budget tokens := by
  induction budget using budget_induction generalizing field tokens with
  | step budget guarded =>
    rw [queryReader_eq]
    exact guarded_readSequence (spelled_clause stop budget field)
      (guarded_readClause (guarded_readBody guarded) field) tokens

end Readers

theorem firstBeyond_of_ofTokens {scanned : Scanned} {field : Text} {place : Nat}
    (refused : Query.ofTokens scanned field = .error ⟨.nestedTooDeeply, place⟩) :
    FirstBeyond maxNesting scanned.tokens place := by
  rw [Query.ofTokens] at refused
  split at refused
  · rename_i fault failed
    rw [Except.error.inj refused] at failed
    exact guarded_queryReader scanned.stop maxNesting field scanned.tokens failed
  · cases refused
  · exact absurd (Except.error.inj refused) (unexpected_ne_nested _ _ _ _)

/-! ## Paths -/

/-- A way down the tree from its root to a leaf, with every query on it. -/
inductive Query.HasPath : Query → List Query → Prop
  | leaf {content} : HasPath (.leaf content) [.leaf content]
  | group {members member path} (inside : member ∈ members) (below : HasPath member.2 path) :
      HasPath (.group members) (.group members :: path)
  | boosted {inner boost path} (below : HasPath inner path) :
      HasPath (.boosted inner boost) (.boosted inner boost :: path)

/-- No path of the query is longer. -/
def Query.PathsWithin (bound : Nat) (query : Query) : Prop :=
  ∀ path, query.HasPath path → path.length ≤ bound

namespace Query.PathsWithin

variable {bound : Nat} {query : Query}

theorem mono {longer : Nat} (within : query.PathsWithin bound) (less : bound ≤ longer) :
    query.PathsWithin longer :=
  fun path has => Nat.le_trans (within path has) less

theorem boostedBy (within : query.PathsWithin bound) (boost : Option Boost) :
    (query.boostedBy boost).PathsWithin (bound + 1) := by
  cases boost with
  | none => exact within.mono (Nat.le_succ bound)
  | some boost =>
    rintro _ (_ | _ | ⟨below⟩)
    exact Nat.succ_le_succ (within _ below)

theorem group {members : List (Occur × Query)}
    (each : ∀ member ∈ members, member.2.PathsWithin bound) :
    (Query.group members).PathsWithin (bound + 1) := by
  rintro _ (_ | ⟨inside, below⟩ | _)
  exact Nat.succ_le_succ (each _ inside _ below)

theorem assemble {first : Part} {others : List Part}
    (each : ∀ part ∈ first :: others, part.query.PathsWithin bound) :
    (AlarmQuery.assemble first others).PathsWithin (bound + 1) := by
  rw [AlarmQuery.assemble]
  split
  · exact (each first List.mem_cons_self).mono (Nat.le_succ bound)
  · apply group
    intro member inside
    rcases exists_part_of_mem_groupMembers inside with ⟨part, present, same⟩
    exact same ▸ each part present

end Query.PathsWithin

/-- How long the paths of what a phrase stands for may be: a level of parentheses adds a group and
a boost. -/
def Phrase.PathsWithin (budget : Nat) : Phrase → Prop
  | .body query => query.PathsWithin (2 * budget + 2)
  | .clause query => query.PathsWithin (2 * budget + 2)
  | .parts others => ∀ part ∈ others, part.query.PathsWithin (2 * budget + 2)
  | .sequence query => query.PathsWithin (2 * budget + 3)

theorem Derives.pathsWithin {budget : Nat} {field : Text} {tokens : Tokens} {phrase : Phrase}
    (derived : Derives budget field tokens phrase) : phrase.PathsWithin budget := by
  induction derived with
  | @operand budget field _ _ _ condition boost _ _ =>
    have single : (Query.leaf ⟨field, condition⟩).PathsWithin 1 := by
      rintro _ (_ | _ | _)
      exact Nat.le_refl 1
    exact (single.boostedBy boost).mono (by omega)
  | parentheses _ _ _ _ ih => exact ih.boostedBy _
  | unnamed _ ih => exact ih
  | named _ _ _ ih => exact ih
  | done => exact fun _ absent => absurd absent List.not_mem_nil
  | part _ _ _ _ clause rest => exact List.forall_mem_cons.2 ⟨clause, rest⟩
  | sequence _ _ _ clause rest =>
    exact Query.PathsWithin.assemble (List.forall_mem_cons.2 ⟨clause, rest⟩)

/-! ## Whole texts -/

/-- A text is turned down for its nesting at the first parenthesis in front of which 256 or more are
open, and never if there is none.  What is accepted has no path from its root to a leaf that is
longer than 515. -/
theorem Query.nesting_guard {text field : Text} {scanned : Scanned}
    (scans : scan text = .ok scanned) :
    (∀ fault, Query.parse text field = .error fault → fault.value = .nestedTooDeeply →
      ∃ before opening after, scanned.tokens = before ++ opening :: after ∧
        opening.value = .openParen ∧ opening.position = fault.position ∧
        256 ≤ excess before ∧ NestsWithin 256 before) ∧
    (NestsWithin 256 scanned.tokens → ∀ fault, Query.parse text field = .error fault →
      fault.value ≠ .nestedTooDeeply) ∧
    ∀ query, Query.parse text field = .ok query → ∀ path, query.HasPath path →
      path.length ≤ 515 := by
  have parsed : Query.parse text field = Query.ofTokens scanned field := by
    rw [Query.parse, scans]
  have beyond {fault : Placed Fault} (refused : Query.parse text field = .error fault)
      (nested : fault.value = .nestedTooDeeply) :
      FirstBeyond maxNesting scanned.tokens fault.position := by
    have failed : Query.ofTokens scanned field = .error ⟨.nestedTooDeeply, fault.position⟩ := by
      rw [← parsed, refused, ← nested]
    exact firstBeyond_of_ofTokens failed
  refine ⟨fun fault refused nested => beyond refused nested, ?_, ?_⟩
  · intro nests fault refused nested
    exact not_firstBeyond nests _ (beyond refused nested)
  · intro query accepted path has
    rw [parsed] at accepted
    exact (derives_of_ofTokens accepted).pathsWithin path has

/-- Parentheses that close again do not count, and the first of those that are too deep is blamed
although another one follows. -/
theorem Query.nesting_guard_of_deep_text :
    ∃ scanned before opening after,
      scan ("(a)".toList ++ List.replicate 258 '(') = .ok scanned ∧
      scanned.tokens = before ++ opening :: after ∧ opening.value = .openParen ∧
      opening.position = 259 ∧ 256 ≤ excess before ∧ NestsWithin 256 before := by
  have scanned : (scan ("(a)".toList ++ List.replicate 258 '(')).toOption.isSome = true := by
    decide +kernel
  have tested : ((Query.parse ("(a)".toList ++ List.replicate 258 '(') ['d']).map fun _ => ()) =
      .error ⟨.nestedTooDeeply, 259⟩ := by
    decide +kernel
  rcases Option.isSome_iff_exists.1 scanned with ⟨tokens, given⟩
  have scans := eq_ok_of_toOption given
  have refused := eq_error_of_map_eq_error tested
  rcases (Query.nesting_guard scans).1 _ refused rfl with
    ⟨before, opening, after, split, opens, there, beyond, within⟩
  exact ⟨tokens, before, opening, after, scans, split, opens, there, beyond, within⟩

end AlarmQuery
