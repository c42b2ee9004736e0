import AlarmQuery.Proofs.Query.Derivation
import AlarmQuery.Proofs.Query.Leaves
import Mathlib.Data.List.Infix

/-!
# What an accepted query says about its tokens

Each leaf of an accepted query stands for one of its tokens.  Behind every colon something follows
that the colon is about, and where that is never a parenthesis, every colon names the field of a
leaf of its own.  All of this is proved by induction on derivations.
-/

namespace AlarmQuery

/-! ## Leaves and their tokens -/

/-- The leaves of a part of a query. -/
def Phrase.leaves : Phrase → List Leaf
  | .body query => query.leaves
  | .clause query => query.leaves
  | .parts others => others.flatMap fun part => part.query.leaves
  | .sequence query => query.leaves

variable {budget : Nat} {field : Text} {tokens : Tokens} {phrase : Phrase}

/-- A leaf is what one of the tokens stands for. -/
theorem Derives.exists_denotes (derived : Derives budget field tokens phrase) :
    ∀ leaf ∈ phrase.leaves, ∃ token ∈ tokens, ∃ slop,
      Denotes leaf.field slop token leaf.condition := by
  induction derived with
  | @operand _ _ token _ slop _ _ meaning _ =>
    intro leaf member
    rw [Phrase.leaves, Query.leaves_boostedBy] at member
    rw [List.mem_singleton.1 member]
    exact ⟨token, List.mem_cons_self, slop, meaning⟩
  | parentheses _ _ _ _ ih =>
    intro leaf member
    rw [Phrase.leaves, Query.leaves_boostedBy] at member
    rcases ih leaf member with ⟨token, inside, denotes⟩
    exact ⟨token, List.mem_cons_of_mem _ (List.mem_append_left _ inside), denotes⟩
  | unnamed _ ih => exact ih
  | named _ _ _ ih =>
    intro leaf member
    rcases ih leaf member with ⟨token, inside, denotes⟩
    exact ⟨token, List.mem_cons_of_mem _ (List.mem_cons_of_mem _ inside), denotes⟩
  | done => exact fun _ absent => absurd absent List.not_mem_nil
  | part _ _ _ _ clause rest =>
    intro leaf member
    rw [Phrase.leaves, List.flatMap_cons, List.mem_append] at member
    rcases member with first | later
    · rcases clause leaf first with ⟨token, inside, denotes⟩
      exact ⟨token, by simp [inside], denotes⟩
    · rcases rest leaf later with ⟨token, inside, denotes⟩
      exact ⟨token, by simp [inside], denotes⟩
  | sequence _ _ _ clause rest =>
    intro leaf member
    rw [Phrase.leaves, Query.leaves_assemble, List.flatMap_cons, List.mem_append] at member
    rcases member with first | later
    · rcases clause leaf first with ⟨token, inside, denotes⟩
      exact ⟨token, by simp [inside], denotes⟩
    · rcases rest leaf later with ⟨token, inside, denotes⟩
      exact ⟨token, by simp [inside], denotes⟩

/-! ## Tokens that are no colons -/

/-- Behind every colon a token of the given kind follows. -/
def Followed (kind : Token → Prop) (tokens : Tokens) : Prop :=
  ∀ before colon after, tokens = before ++ colon :: after → colon.value = .colon →
    ∃ next rest, after = next :: rest ∧ kind next.value

namespace Followed

variable {kind : Token → Prop}

theorem of_forall_ne (noColon : ∀ token ∈ tokens, token.value ≠ .colon) : Followed kind tokens := by
  rintro before colon after rfl separates
  exact absurd separates (noColon colon (by simp))

theorem append {first second : Tokens} (one : Followed kind first) (two : Followed kind second) :
    Followed kind (first ++ second) := by
  intro before colon after split separates
  rcases List.append_eq_append_iff.1 split with
    ⟨middle, rfl, same⟩ | ⟨middle, same, behind⟩
  · exact two middle colon after same separates
  · cases middle with
    | nil => exact two [] colon after behind.symm separates
    | cons token middle =>
      rw [List.cons_append, List.cons.injEq] at behind
      rcases behind with ⟨rfl, rfl⟩
      rcases one before colon middle same separates with ⟨next, rest, rfl, holds⟩
      exact ⟨next, rest ++ second, rfl, holds⟩

theorem cons {token : Placed Token} (other : token.value ≠ .colon)
    (followed : Followed kind tokens) : Followed kind (token :: tokens) := by
  have single : Followed kind [token] := of_forall_ne fun _ member => by
    rwa [List.mem_singleton.1 member]
  exact single.append followed

theorem colon_cons {colon next : Placed Token} (right : kind next.value)
    (followed : Followed kind (next :: tokens)) : Followed kind (colon :: next :: tokens) := by
  intro before other after split separates
  cases before with
  | nil =>
    rw [List.nil_append, List.cons.injEq] at split
    exact ⟨next, tokens, split.2.symm, right⟩
  | cons first before =>
    rw [List.cons_append, List.cons.injEq] at split
    exact followed before other after split.2 separates

end Followed

theorem Token.IsSuffix.ne_colon {token : Token} (suffix : token.IsSuffix) : token ≠ .colon := by
  rcases suffix with ⟨number, rfl⟩ | ⟨number, rfl⟩
  · exact Token.noConfusion
  · exact Token.noConfusion

/-- The tokens that stand for nothing by themselves. -/
def marks : List Token := [.plus, .minus, .openParen, .closeParen, .colon]

theorem Denotes.ne_mark {slop : Option Text} {token : Placed Token} {condition : Condition}
    (denotes : Denotes field slop token condition) {mark : Token} (silent : mark ∈ marks) :
    token.value ≠ mark := by
  rintro rfl
  cases denotes with
  | quoted value _ =>
    rw [value] at silent
    simp [marks] at silent
  | range value _ =>
    rw [value] at silent
    simp [marks] at silent
  | word read =>
    simp only [marks, List.mem_cons, List.not_mem_nil, or_false] at silent
    rcases silent with value | value | value | value | value
    all_goals
      rw [wordCondition?, value] at read
      cases read

theorem Names.ne_mark {token : Placed Token} {name : Text} (names : Names token name)
    {mark : Token} (silent : mark ∈ marks) : token.value ≠ mark := by
  rintro rfl
  rcases names with ⟨word, value, _⟩ | ⟨value, _⟩
  · rw [value] at silent
    simp [marks] at silent
  · rw [value] at silent
    simp [marks] at silent

theorem Conjunction.ne_colon {conjunction : Conjunction} {joint : Tokens}
    (joins : joint.map Placed.value ∈ conjunction.spellings) :
    ∀ token ∈ joint, token.value ≠ .colon := by
  have listed : ∀ values ∈ conjunction.spellings, ∀ value ∈ values, value ≠ Token.colon := by
    cases conjunction <;> decide
  intro token member
  exact listed _ joins _ (List.mem_map_of_mem member)

theorem Modifier.ne_colon {modifier : Modifier} {sign : Tokens}
    (modifies : sign.map Placed.value ∈ modifier.spellings) :
    ∀ token ∈ sign, token.value ≠ .colon := by
  have listed : ∀ values ∈ modifier.spellings, ∀ value ∈ values, value ≠ Token.colon := by
    cases modifier <;> decide
  intro token member
  exact listed _ modifies _ (List.mem_map_of_mem member)

theorem Derives.operand_ne_colon {token : Placed Token} {suffix : Tokens} {slop : Option Text}
    {condition : Condition} (meaning : Denotes field slop token condition)
    (suffixes : ∀ mark ∈ suffix, mark.value.IsSuffix) :
    ∀ mark ∈ token :: suffix, mark.value ≠ .colon := by
  intro mark member
  rcases List.mem_cons.1 member with rfl | inSuffix
  · exact meaning.ne_mark (by decide)
  · exact (suffixes mark inSuffix).ne_colon

/-! ## What follows a colon -/

/-- A body does not begin with a closing parenthesis. -/
theorem Derives.exists_cons_of_body {query : Query}
    (derived : Derives budget field tokens (.body query)) :
    ∃ next rest, tokens = next :: rest ∧ next.value ≠ .closeParen := by
  cases derived with
  | operand meaning _ => exact ⟨_, _, rfl, meaning.ne_mark (by decide)⟩
  | parentheses opens _ _ _ =>
    refine ⟨_, _, rfl, ?_⟩
    rw [opens]
    exact Token.noConfusion

/-- Something follows every colon, and it is no closing parenthesis. -/
theorem Derives.followed (derived : Derives budget field tokens phrase) :
    Followed (· ≠ .closeParen) tokens := by
  induction derived with
  | operand meaning suffixes => exact .of_forall_ne (operand_ne_colon meaning suffixes)
  | parentheses opens _ closes suffixes ih =>
    have behind : Followed (· ≠ .closeParen) _ :=
      .of_forall_ne fun mark member => (suffixes mark member).ne_colon
    apply Followed.cons
    · rw [opens]
      exact Token.noConfusion
    · apply ih.append
      apply behind.cons
      rw [closes]
      exact Token.noConfusion
  | unnamed _ ih => exact ih
  | named names _ body ih =>
    apply Followed.cons (names.ne_mark (by decide))
    rcases body.exists_cons_of_body with ⟨next, rest, rfl, other⟩
    exact Followed.colon_cons other ih
  | done => exact .of_forall_ne fun _ absent => absurd absent List.not_mem_nil
  | part joins modifies _ _ clause rest =>
    exact (Followed.of_forall_ne (Conjunction.ne_colon joins)).append
      ((Followed.of_forall_ne (Modifier.ne_colon modifies)).append (clause.append rest))
  | sequence modifies _ _ clause rest =>
    exact (Followed.of_forall_ne (Modifier.ne_colon modifies)).append (clause.append rest)

/-! ## Counting colons -/

/-- How many colons there are. -/
def countColons (tokens : Tokens) : Nat := tokens.countP fun token => token.value = .colon

@[simp]
theorem countColons_append (first second : Tokens) :
    countColons (first ++ second) = countColons first + countColons second :=
  List.countP_append

theorem countColons_eq_zero (noColon : ∀ token ∈ tokens, token.value ≠ .colon) :
    countColons tokens = 0 := by
  rw [countColons, List.countP_eq_zero]
  intro token member
  simpa using noColon token member

theorem countColons_cons {token : Placed Token} (other : token.value ≠ .colon) :
    countColons (token :: tokens) = countColons tokens := by
  simp [countColons, other]

theorem countColons_colon {colon : Placed Token} (separates : colon.value = .colon) :
    countColons (colon :: tokens) = countColons tokens + 1 := by
  simp [countColons, separates]

/-- Where no colon stands in front of parentheses, each of them names the field of a leaf of its
own. -/
theorem Derives.countColons_le {whole : Tokens} {property : Text → Bool}
    (flat : Followed (· ≠ .openParen) whole)
    (named : ∀ token ∈ whole, ∀ name, Names token name → property name = true)
    (derived : Derives budget field tokens phrase) (inside : tokens <:+: whole) :
    countColons tokens ≤ phrase.leaves.countP fun leaf => property leaf.field := by
  induction derived with
  | operand meaning suffixes =>
    rw [countColons_eq_zero (operand_ne_colon meaning suffixes)]
    exact Nat.zero_le _
  | @parentheses _ _ opening content closing suffix query boost opens _ closes suffixes ih =>
    have part : content <:+: opening :: (content ++ closing :: suffix) :=
      ⟨[opening], closing :: suffix, by simp⟩
    have opensNone : opening.value ≠ .colon := opens.trans_ne Token.noConfusion
    have closesNone : closing.value ≠ .colon := closes.trans_ne Token.noConfusion
    have suffixNone := countColons_eq_zero fun mark member => (suffixes mark member).ne_colon
    rw [countColons_cons opensNone, countColons_append, countColons_cons closesNone, suffixNone]
    rw [Phrase.leaves, Query.leaves_boostedBy]
    exact ih (part.trans inside)
  | unnamed _ ih => exact ih inside
  | @named _ _ name token colon tokens query names separates body _ =>
    rcases inside with ⟨before, after, rfl⟩
    -- the body is no parenthesis, so it is the operand whose field the colon names
    cases body with
    | operand meaning suffixes =>
      have noColons := countColons_eq_zero (operand_ne_colon meaning suffixes)
      have holds : property name = true := named token (by simp) name names
      rw [countColons_cons (names.ne_mark (by decide)), countColons_colon separates, noColons]
      rw [Phrase.leaves, Query.leaves_boostedBy, Query.leaves]
      simp [holds]
    | @parentheses _ _ opening content closing suffix _ _ opens _ _ _ =>
      rcases flat (before ++ [token]) colon (opening :: (content ++ closing :: suffix ++ after))
        (by simp) separates with ⟨next, rest, same, other⟩
      rw [List.cons.injEq] at same
      rw [← same.1] at other
      exact absurd opens other
  | done => exact Nat.le_refl _
  | @part _ _ _ _ joint sign tokens others _ _ joins modifies _ _ clause rest =>
    have clausePart : tokens <:+: joint ++ (sign ++ (tokens ++ others)) :=
      ⟨joint ++ sign, others, by simp⟩
    have restPart : others <:+: joint ++ (sign ++ (tokens ++ others)) :=
      ⟨joint ++ (sign ++ tokens), [], by simp⟩
    simp only [countColons_append, countColons_eq_zero (Conjunction.ne_colon joins),
      countColons_eq_zero (Modifier.ne_colon modifies), Nat.zero_add]
    rw [Phrase.leaves, List.flatMap_cons, List.countP_append]
    exact Nat.add_le_add (clause (clausePart.trans inside)) (rest (restPart.trans inside))
  | @sequence _ _ _ sign tokens others _ _ modifies _ _ clause rest =>
    have clausePart : tokens <:+: sign ++ (tokens ++ others) := ⟨sign, others, by simp⟩
    have restPart : others <:+: sign ++ (tokens ++ others) := ⟨sign ++ tokens, [], by simp⟩
    simp only [countColons_append, countColons_eq_zero (Modifier.ne_colon modifies), Nat.zero_add]
    rw [Phrase.leaves, Query.leaves_assemble, List.flatMap_cons, List.countP_append]
    exact Nat.add_le_add (clause (clausePart.trans inside)) (rest (restPart.trans inside))

end AlarmQuery
