import AlarmQuery.Proofs.Query.Parts
import AlarmQuery.Proofs.Query.Regular
import AlarmQuery.Query.Render

/-!
# Queries that are printed and read again

The text of a query escapes nothing.  Where nothing needs an escape and nothing is boosted, the text
is read as the query that it was printed from: leaf by leaf, and group by group in the parentheses
that the text puts around groups among other members.
-/

namespace AlarmQuery

/-! ## Plain queries -/

/-- None of the texts that the condition keeps without their escapes needs one. -/
def Condition.IsPlain : Condition → Prop
  | .term text => text.IsPlain
  | .startsWith beginning => beginning.IsPlain
  | .range lower upper _ _ => (∀ text ∈ lower, text.IsPlain) ∧ ∀ text ∈ upper, text.IsPlain
  | .fuzzy text _ => text.IsPlain
  | .wildcard _ | .regexp _ | .everything => True

/-- The condition is plain, and so is its field if it is not every field. -/
structure Leaf.IsPlain (leaf : Leaf) : Prop where
  field : leaf.field.IsPlain ∨ leaf.field = ['*']
  condition : leaf.condition.IsPlain

/-- Nothing is boosted, and every leaf is plain. -/
inductive Query.IsPlain : Query → Prop
  | leaf {content} (plain : content.IsPlain) : IsPlain (.leaf content)
  | group {members} (each : ∀ member ∈ members, IsPlain member.2) : IsPlain (.group members)

instance : (condition : Condition) → Decidable condition.IsPlain
  | .term text => inferInstanceAs (Decidable text.IsPlain)
  | .startsWith beginning => inferInstanceAs (Decidable beginning.IsPlain)
  | .range lower upper _ _ => inferInstanceAs
      (Decidable ((∀ text ∈ lower, text.IsPlain) ∧ ∀ text ∈ upper, text.IsPlain))
  | .fuzzy text _ => inferInstanceAs (Decidable text.IsPlain)
  | .wildcard _ | .regexp _ | .everything => inferInstanceAs (Decidable True)

instance (leaf : Leaf) : Decidable leaf.IsPlain :=
  decidable_of_iff ((leaf.field.IsPlain ∨ leaf.field = ['*']) ∧ leaf.condition.IsPlain)
    ⟨fun ⟨field, condition⟩ => ⟨field, condition⟩, fun plain => ⟨plain.field, plain.condition⟩⟩

namespace Query

theorem isPlain_leaf_iff {content : Leaf} : (leaf content).IsPlain ↔ content.IsPlain :=
  ⟨fun | .leaf plain => plain, .leaf⟩

theorem isPlain_group_iff {members : List (Occur × Query)} :
    (group members).IsPlain ↔ ∀ member ∈ members, member.2.IsPlain :=
  ⟨fun | .group each => each, .group⟩

mutual

/-- Along the tree, a query is found to be plain or not. -/
def decidableIsPlain : (query : Query) → Decidable query.IsPlain
  | .leaf content => decidable_of_iff content.IsPlain isPlain_leaf_iff.symm
  | .group members =>
    @decidable_of_iff _ _ isPlain_group_iff.symm (decidableMembersPlain members)
  | .boosted .. => isFalse nofun

def decidableMembersPlain : (members : List (Occur × Query)) →
    Decidable (∀ member ∈ members, member.2.IsPlain)
  | [] => isTrue fun _ absent => absurd absent List.not_mem_nil
  | (_, query) :: others =>
    @decidable_of_iff _ _ List.forall_mem_cons.symm
      (@instDecidableAnd _ _ (decidableIsPlain query) (decidableMembersPlain others))

end

instance (query : Query) : Decidable query.IsPlain := decidableIsPlain query

end Query

/-! ## Leaves -/

/-- A plain field is one word, and so is the name of every field. -/
theorem scans_plainField {field : Text} (named : field.IsPlain ∨ field = ['*']) {rest : Text}
    (ends : EndsWord rest) (position : Nat) :
    ∃ token, Scans ⟨position, field ++ rest⟩ [token] ⟨position + field.length, rest⟩ ∧
      Names token field := by
  rcases named with plain | rfl
  · have names : Names ⟨Token.ofWord field, position⟩ field :=
      Or.inl ⟨field, plain.ofWord_eq, plain.unescapeAt_eq position⟩
    exact ⟨_, plain.isWord.scans ends position, names⟩
  · exact ⟨_, isWord_star.scans ends position, Or.inr ⟨rfl, rfl⟩⟩

section

variable {budget : Nat} {field : Text}

theorem scannedAs_word {text : Text} {token : Token} {condition : Condition} (word : text.IsWord)
    (value : Token.ofWord text = token)
    (read : ∀ position, wordCondition? field none ⟨token, position⟩ = some (.ok condition)) :
    ScannedAs text fun tokens =>
      Spells budget field tokens (.body (.leaf ⟨field, condition⟩)) := by
  subst value
  exact fun position _ ends => ⟨_, word.scans ends position, spells_word (read position)⟩

/-- A bound of a range, or the star that stands for no bound. -/
theorem isBound_getD {bound : Option Text} (plain : ∀ text ∈ bound, text.IsPlain) :
    IsBound (bound.getD ['*']) (bound.getD ['*']) false := by
  cases bound with
  | none => exact .star
  | some text => exact .of_isPlain (plain text rfl)

theorem readBoundText_getD {bound : Option Text} (plain : ∀ text ∈ bound, text.IsPlain)
    (place : Nat) : readBoundText ⟨bound.getD ['*'], false, place⟩ = .ok bound := by
  cases bound with
  | none => rfl
  | some text =>
    have noStar : text ≠ ['*'] := by
      rintro rfl
      exact absurd (plain ['*'] rfl) (by decide)
    simp only [readBoundText, Option.getD_some, Bool.false_eq_true, if_false, if_neg noStar,
      (plain text rfl).unescapeAt_eq]
    rfl

theorem scannedAs_range {lower upper : Option Text} (lowerPlain : ∀ text ∈ lower, text.IsPlain)
    (upperPlain : ∀ text ∈ upper, text.IsPlain) (lowerInclusive upperInclusive : Bool) :
    ScannedAs (rangeText (lower.getD ['*']) (upper.getD ['*']) lowerInclusive upperInclusive)
      fun tokens => Spells budget field tokens
        (.body (.leaf ⟨field, .range lower upper lowerInclusive upperInclusive⟩)) := by
  intro position rest _
  rcases scans_rangeText (isBound_getD lowerPlain) (isBound_getD upperPlain) lowerInclusive
    upperInclusive position rest with ⟨lowerPlace, upperPlace, scans⟩
  refine ⟨_, scans, spells_range rfl ?_⟩
  rw [rangeCondition, readBoundText_getD lowerPlain, readBoundText_getD upperPlain]
  rfl

theorem scannedAs_fuzzy {text slop : Text} (plain : text.IsPlain)
    (stored : (Token.slop slop).IsStored) :
    ScannedAs (text ++ '~' :: slop) fun tokens =>
      Spells budget field tokens (.body (.leaf ⟨field, .fuzzy text slop⟩)) := by
  intro position rest ends
  have word := plain.isWord.scans (endsWord_cons '~' (by decide) (slop ++ rest)) position
  have joined := word.trans (scans_slop stored ends (position + text.length))
  refine ⟨_, Scans.recount (by simpa using joined) ?_, ?_⟩
  · simp only [List.length_append, List.length_cons]
    omega
  · have read : wordCondition? field (some slop) ⟨.ofWord text, position⟩ =
        some (.ok (.fuzzy text slop)) := by
      simp only [wordCondition?, plain.ofWord_eq, plain.unescapeAt_eq]
      rfl
    have suffixes : [(⟨.slop slop, position + text.length⟩ : Placed Token)].map Placed.value ∈
        wordSuffixes (some slop) none := List.mem_cons_self
    exact .word read suffixes

/-- What stands behind the field of a plain leaf is read as its condition. -/
theorem scannedAs_condition {condition : Condition} (plain : condition.IsPlain)
    (stored : condition.IsStored field) :
    ScannedAs condition.text fun tokens =>
      Spells budget field tokens (.body (.leaf ⟨field, condition⟩)) := by
  cases condition with
  | term text =>
    refine scannedAs_word plain.isWord plain.ofWord_eq fun position => ?_
    simp only [wordCondition?, plain.unescapeAt_eq]
    rfl
  | wildcard pattern =>
    rcases stored with ⟨named, rfl⟩ | ⟨value, word⟩
    · have star : Token.ofWord ['*'] = .star := rfl
      refine scannedAs_word isWord_star star fun position => ?_
      simp only [wordCondition?, if_neg named]
    · exact scannedAs_word word value fun position => rfl
  | startsWith beginning =>
    refine scannedAs_word plain.isWord_starred plain.ofWord_starred fun position => ?_
    simp only [wordCondition?, List.dropLast_concat, plain.unescapeAt_eq]
    rfl
  | range lower upper lowerInclusive upperInclusive =>
    exact scannedAs_range plain.1 plain.2 lowerInclusive upperInclusive
  | regexp expression =>
    rcases stored with ⟨letters, rfl, inside⟩
    intro position rest _
    exact ⟨_, scans_regexp inside position rest, spells_word rfl⟩
  | fuzzy text slop => exact scannedAs_fuzzy plain stored
  | everything =>
    obtain rfl : field = ['*'] := stored
    exact scannedAs_word isWord_star rfl fun position => rfl

/-- What matches everything is written as a condition on every field like any other. -/
theorem Leaf.text_eq {leaf : Leaf} (stored : leaf.condition.IsStored leaf.field) :
    leaf.text = leaf.field ++ ':' :: leaf.condition.text := by
  rcases leaf with ⟨name, condition⟩
  cases condition with
  | everything =>
    obtain rfl : name = ['*'] := stored
    rfl
  | _ => rfl

theorem scannedAs_leaf {leaf : Leaf} (plain : leaf.IsPlain)
    (stored : leaf.condition.IsStored leaf.field) :
    ScannedAs leaf.text fun tokens => Spells budget field tokens (.clause (.leaf leaf)) := by
  rw [Leaf.text_eq stored]
  intro position rest ends
  have colon : EndsWord (':' :: (leaf.condition.text ++ rest)) := endsWord_cons ':' (by decide) _
  rcases scans_plainField plain.field colon position with ⟨token, name, names⟩
  rcases scannedAs_condition plain.condition stored (position + leaf.field.length + 1) rest ends
    with ⟨tokens, condition, body⟩
  have joined := name.trans ((scans_colon _ _).trans condition)
  refine ⟨_, Scans.recount (by simpa using joined) ?_, .named names rfl body⟩
  simp only [List.length_append, List.length_cons]
  omega

end

/-! ## Groups -/

/-- The modifier that is written in front of a member. -/
def Occur.modifier : Occur → Modifier
  | .must => .required
  | .should => .none
  | .mustNot => .prohibited

@[simp]
theorem Occur.occur_modifier (occur : Occur) : occur.modifier.occur = occur := by
  cases occur <;> rfl

theorem scans_operator (occur : Occur) {c : Char} (noSpace : isSpace c = false) (position : Nat)
    (rest : Text) :
    ∃ sign, Scans ⟨position, occur.operator ++ c :: rest⟩ sign
        ⟨position + occur.operator.length, c :: rest⟩ ∧
      sign.map Placed.value ∈ occur.modifier.spellings := by
  cases occur with
  | must => exact ⟨_, scans_plus noSpace position rest, List.mem_cons_self⟩
  | should => exact ⟨[], Scans.refl _, List.mem_cons_self⟩
  | mustNot => exact ⟨_, scans_minus noSpace position rest, List.mem_cons_self⟩

/-- What is printed of a member behind its operator begins with no space. -/
theorem Query.IsPlain.begins {query : Query} (plain : query.IsPlain) :
    ∃ c tail, query.enclose query.text = c :: tail ∧ isSpace c = false := by
  cases plain with
  | @leaf content plain =>
    rcases content with ⟨name, condition⟩
    rcases plain.field with named | rfl
    · rcases named.begins with ⟨c, tail, rfl, start⟩
      cases condition with
      | everything => exact ⟨'*', _, rfl, by decide⟩
      | _ => exact ⟨c, _, rfl, isSpace_of_isTermStart start⟩
    · cases condition <;> exact ⟨'*', _, rfl, by decide⟩
  | group each => exact ⟨'(', _, rfl, by decide⟩

section

variable {budget : Nat} {field : Text}

theorem scannedAs_member {occur : Occur} {query : Query} {text : Text}
    (begins : ∃ c tail, text = c :: tail ∧ isSpace c = false)
    (scanned : ScannedAs text fun tokens => Spells budget field tokens (.clause query)) :
    ScannedAs (occur.operator ++ text) (SpellsPart budget field occur.modifier query) := by
  intro position rest ends
  rcases scanned (position + occur.operator.length) rest ends with ⟨tokens, scans, clause⟩
  rcases begins with ⟨c, tail, rfl, noSpace⟩
  rcases scans_operator occur noSpace position (tail ++ rest) with ⟨sign, operator, modifies⟩
  refine ⟨sign ++ tokens, ?_, sign, tokens, rfl, modifies, clause⟩
  have joined := operator.trans scans
  refine Scans.recount (by simpa using joined) ?_
  simp only [List.length_append, List.length_cons]
  omega

/-- Members that are written with their operators are read as the group that they are. -/
theorem assemble_members {first : Occur × Query} {others : List (Occur × Query)}
    (needed : ∀ query, first :: others ≠ [(.should, query)]) :
    assemble (first.1.modifier.part first.2)
        (others.map fun member => member.1.modifier.part member.2) =
      .group (first :: others) := by
  have grouped : ((others.map fun member => member.1.modifier.part member.2).isEmpty &&
      (first.1.modifier.part first.2).modifier = .none) = false := by
    rcases first with ⟨occur, query⟩
    cases others with
    | nil =>
      cases occur with
      | should => exact absurd rfl (needed query)
      | must => rfl
      | mustNot => rfl
    | cons other others => rfl
  have members := groupMembers_map_part (fun member : Occur × Query => member.1.modifier) Prod.snd
    (first :: others)
  simp only [Occur.occur_modifier, List.map_cons, List.map_id'] at members
  rw [assemble, grouped]
  exact congrArg Query.group members

/-- The text of a group is read as its members, if what is printed of each is read as it. -/
theorem scannedAs_group {members : List (Occur × Query)} (nonempty : members ≠ [])
    (needed : ∀ query, members ≠ [(.should, query)])
    (plain : ∀ member ∈ members, member.2.IsPlain)
    (each : ∀ member ∈ members, ScannedAs (member.2.enclose member.2.text) fun tokens =>
      Spells budget field tokens (.clause member.2)) :
    ScannedAs (Query.group members).text fun tokens =>
      Spells budget field tokens (.sequence (.group members)) := by
  have parts (member : Occur × Query) (inside : member ∈ members) :
      ScannedAs (member.1.operator ++ member.2.enclose member.2.text)
        (SpellsPart budget field member.1.modifier member.2) :=
    scannedAs_member (plain member inside).begins (each member inside)
  rw [Query.text, Query.memberTexts_eq_map]
  refine (scannedAs_join parts).imp fun tokens concats => ?_
  rcases List.exists_cons_of_ne_nil nonempty with ⟨first, others, rfl⟩
  have spelled := spells_sequence concats
  rwa [assemble_members needed] at spelled

end

/-! ## Queries -/

namespace Query.Regular

variable {depth : Nat} {query : Query}

/-- What is printed of a plain member behind its operator is read as the member, by induction on
the groups in it. -/
theorem scannedAs_enclose (regular : query.Regular depth) (plain : query.IsPlain)
    (field : Text) :
    ScannedAs (query.enclose query.text) fun tokens =>
      Spells depth field tokens (.clause query) := by
  induction regular with
  | leaf stored =>
    cases plain with
    | leaf plain => exact scannedAs_leaf plain stored
  | group nonempty needed _ ih =>
    cases plain with
    | group plain =>
      have inner := scannedAs_group nonempty needed plain fun member inside =>
        ih member inside (plain member inside)
      exact inner.enclose.imp fun _ => spells_parenthesized
  | boosted => cases plain

/-- Alone a group is printed without parentheses. -/
theorem scannedAs_text (regular : query.Regular (depth + 1)) (plain : query.IsPlain)
    (field : Text) :
    ScannedAs query.text fun tokens => Spells depth field tokens (.sequence query) := by
  cases regular with
  | leaf stored =>
    cases plain with
    | leaf plain => exact (scannedAs_leaf plain stored).imp fun _ => Spells.alone
  | group nonempty needed each =>
    cases plain with
    | group plain =>
      exact scannedAs_group nonempty needed plain fun member inside =>
        (each member inside).scannedAs_enclose (plain member inside) field
  | boosted => cases plain

end Query.Regular

/-- A query that a text is read as is read from its own text again, whatever the default field is,
if nothing in it needs an escape and nothing is boosted. -/
theorem Query.parse_text_of_isPlain {text field : Text} {query : Query}
    (parsed : Query.parse text field = .ok query) (plain : query.IsPlain) (other : Text) :
    Query.parse query.text other = .ok query := by
  have read := (Query.regular_of_parse parsed).scannedAs_text plain other
  rcases read.scan with ⟨scanned, scans, spelled⟩
  exact Query.parse_eq_ok_iff.2 ⟨scanned, scans, spelled⟩

/-- Operators are printed as signs and every leaf with its field. -/
theorem Query.parse_text_of_negated_group :
    ∃ query, Query.parse "a:x (b* OR NOT c:[u TO *\x7d) !y~2".toList ['d'] = .ok query ∧
      query.text = "a:x (d:b* -c:[u TO *\x7d) -d:y~2".toList ∧ query.IsPlain ∧
      Query.parse query.text ['e'] = .ok query := by
  have read : (Query.parse "a:x (b* OR NOT c:[u TO *\x7d) !y~2".toList ['d']).toOption.any
      (fun query => query.text = "a:x (d:b* -c:[u TO *\x7d) -d:y~2".toList ∧ query.IsPlain) =
        true := by
    decide +kernel
  rcases (Option.any_eq_true _ _).1 read with ⟨query, given, found⟩
  rcases of_decide_eq_true found with ⟨written, plain⟩
  have parsed := eq_ok_of_toOption given
  exact ⟨query, parsed, written, plain, Query.parse_text_of_isPlain parsed plain ['e']⟩

end AlarmQuery
