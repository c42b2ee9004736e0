import AlarmQuery.Proofs.Query.Exact

/-!
# How clauses take part, by position

While clauses are added to a group one by one, an `AND` goes back and demands the clause in front
of it.  Here the same is said without going back: how a clause takes part is read off its own
modifier and the conjunctions on its two sides.  `Arranged` is the grammar of queries with this
rule for every sequence of clauses, inside parentheses and out.  A text is read by it and in no
other way.
-/

namespace AlarmQuery

/-! ## One sequence -/

/-- How the part at an index takes part in the group.  An `AND` on either side demands it unless it
is prohibited. -/
def occurAt (parts : List Part) (index : Nat) (part : Part) : Occur :=
  if part.modifier = .prohibited then .mustNot
  else if part.modifier = .required ∨ part.conjunction = .and ∨
      (parts[index + 1]?).map Part.conjunction = some .and then .must
  else .should

/-- The query that a sequence of parts is, part by part.  A single part without a modifier is what
it is. -/
def byPosition : List Part → Query
  | [⟨_, .none, query⟩] => query
  | parts => .group (parts.mapIdx fun index part => (occurAt parts index part, part.query))

/-- The members that the next part finds behind it: an `AND` in front of it demands the last. -/
def foundBy (next : Option Part) (members : List (Occur × Query)) : List (Occur × Query) :=
  if next.map Part.conjunction = some .and then members.modifyHead demand else members

theorem addPart_eq (members : List (Occur × Query)) (part : Part) :
    addPart members part = (part.occur, part.query) :: foundBy (some part) members := by
  simp [addPart, foundBy]

/-- What becomes of a part depends on the part behind it alone. -/
theorem foundBy_addPart (part : Part) (others : List Part) (members : List (Occur × Query)) :
    foundBy others.head? (addPart members part) =
      (occurAt (part :: others) 0 part, part.query) :: foundBy (some part) members := by
  -- an `AND` reaches back one part and no further, so the head of `others` is all that is asked
  rw [addPart_eq, foundBy, occurAt, Part.occur]
  rcases part with ⟨conjunction, modifier, query⟩
  rw [show (⟨conjunction, modifier, query⟩ :: others)[0 + 1]? = others.head? by
    cases others <;> rfl]
  by_cases joined : others.head?.map Part.conjunction = some .and
  · cases modifier <;> cases conjunction <;> simp [joined, demand]
  · cases modifier <;> cases conjunction <;> simp [joined]

/-- Parts are added to what was there, each as its position says, by induction on the parts. -/
theorem reverse_foldl_addPart (parts : List Part) (members : List (Occur × Query)) :
    (parts.foldl addPart members).reverse = (foundBy parts.head? members).reverse ++
      parts.mapIdx fun index part => (occurAt parts index part, part.query) := by
  induction parts generalizing members with
  | nil => simp [foundBy]
  | cons part others ih =>
    have later (index : Nat) (other : Part) :
        occurAt (part :: others) (index + 1) other = occurAt others index other := rfl
    rw [List.foldl_cons, ih, foundBy_addPart, List.mapIdx_cons]
    simp only [later]
    simp

theorem groupMembers_eq_mapIdx (parts : List Part) :
    groupMembers parts =
      parts.mapIdx fun index part => (occurAt parts index part, part.query) := by
  have added := reverse_foldl_addPart parts []
  rw [groupMembers, added, foundBy]
  split <;> rfl

theorem assemble_eq_byPosition (first : Part) (others : List Part) :
    assemble first others = byPosition (first :: others) := by
  rcases first with ⟨conjunction, modifier, query⟩
  cases others with
  | nil =>
    cases modifier with
    | none => rfl
    | required => exact congrArg Query.group (groupMembers_eq_mapIdx _)
    | prohibited => exact congrArg Query.group (groupMembers_eq_mapIdx _)
  | cons second others =>
    cases modifier
    all_goals exact congrArg Query.group (groupMembers_eq_mapIdx _)

/-- A conjunction demands the clauses on both of its sides, unless one is prohibited. -/
example (a b c d : Query) :
    byPosition [⟨.none, .none, a⟩, ⟨.and, .none, b⟩, ⟨.or, .none, c⟩, ⟨.and, .prohibited, d⟩] =
      .group [(.must, a), (.must, b), (.must, c), (.mustNot, d)] := rfl

/-! ## Every sequence of a query -/

/-- A part of a sequence as it is written: its conjunction, its modifier and its clause. -/
structure WrittenPart extends Part where
  joint : Tokens
  sign : Tokens
  clause : Tokens
  joins : joint.map Placed.value ∈ conjunction.spellings
  modifies : sign.map Placed.value ∈ modifier.spellings

/-- All tokens of a part. -/
def WrittenPart.tokens (written : WrittenPart) : Tokens :=
  written.joint ++ (written.sign ++ written.clause)

/-- The tokens are a phrase about a field in which every sequence of clauses, at any depth of
parentheses, is what the positions of its clauses make of it.  What is spelled without any
parentheses is an operand. -/
inductive Arranged : (budget : Nat) → (field : Text) → Tokens → Phrase → Prop
  | operand {budget field tokens query} (spelled : Spells 0 field tokens (.body query)) :
      Arranged budget field tokens (.body query)
  | parentheses {budget field opening content closing suffix query number}
      (opens : opening.value = .openParen)
      (inner : Arranged budget field content (.sequence query))
      (closes : closing.value = .closeParen)
      (suffixes : suffix.map Placed.value = boostTokens number) :
      Arranged (budget + 1) field (opening :: (content ++ closing :: suffix))
        (.body (query.boostedBy (number.map Boost.ofDecimal)))
  | unnamed {budget field tokens query} (body : Arranged budget field tokens (.body query)) :
      Arranged budget field tokens (.clause query)
  | named {budget field name token colon tokens query} (names : Names token name)
      (separates : colon.value = .colon) (body : Arranged budget name tokens (.body query)) :
      Arranged budget field (token :: colon :: tokens) (.clause query)
  | sequence {budget field} {first : WrittenPart} {others : List WrittenPart}
      (leads : first.conjunction = .none)
      (each : ∀ part ∈ first :: others, Arranged budget field part.clause (.clause part.query)) :
      Arranged budget field ((first :: others).flatMap WrittenPart.tokens)
        (.sequence (byPosition ((first :: others).map WrittenPart.toPart)))

/-! ## What is spelled is arranged -/

/-- The written parts of a phrase that consists of parts, or the phrase itself. -/
def Phrase.Arranges (budget : Nat) (field : Text) (tokens : Tokens) : Phrase → Prop
  | .parts others => ∃ written : List WrittenPart,
      tokens = written.flatMap WrittenPart.tokens ∧ others = written.map WrittenPart.toPart ∧
        ∀ part ∈ written, Arranged budget field part.clause (.clause part.query)
  | phrase => Arranged budget field tokens phrase

theorem Spells.arranges {budget : Nat} {field : Text} {tokens : Tokens} {phrase : Phrase}
    (spelled : Spells budget field tokens phrase) : phrase.Arranges budget field tokens := by
  induction spelled with
  | word read suffixes => exact .operand (.word read suffixes)
  | quoted value read suffixes => exact .operand (.quoted value read suffixes)
  | range value read suffixes => exact .operand (.range value read suffixes)
  | parentheses opens _ closes suffixes ih => exact .parentheses opens ih closes suffixes
  | unnamed _ ih => exact .unnamed ih
  | named names separates _ ih => exact .named names separates ih
  | done => exact ⟨[], rfl, rfl, fun _ absent => absurd absent List.not_mem_nil⟩
  | @part _ _ conjunction modifier joint sign tokens _ query _ joins modifies _ _ clause rest =>
    rcases rest with ⟨written, rfl, rfl, each⟩
    let part : WrittenPart := ⟨⟨conjunction, modifier, query⟩, joint, sign, tokens, joins, modifies⟩
    refine ⟨part :: written, ?_, rfl, List.forall_mem_cons.2 ⟨clause, each⟩⟩
    simp [part, WrittenPart.tokens]
  | @sequence budget field modifier sign tokens _ query _ modifies _ _ clause rest =>
    rcases rest with ⟨written, rfl, rfl, each⟩
    let first : WrittenPart :=
      ⟨⟨.none, modifier, query⟩, [], sign, tokens, List.mem_singleton.2 rfl, modifies⟩
    have arranged : Arranged budget field ((first :: written).flatMap WrittenPart.tokens) _ :=
      .sequence rfl (List.forall_mem_cons.2 ⟨clause, each⟩)
    rw [assemble_eq_byPosition]
    show Arranged budget field (sign ++ (tokens ++ written.flatMap WrittenPart.tokens)) _
    simpa [first, WrittenPart.tokens] using arranged

/-! ## What is arranged is spelled -/

section

variable {budget : Nat} {field : Text}

theorem spells_written {written : List WrittenPart}
    (each : ∀ part ∈ written, Spells budget field part.clause (.clause part.query)) :
    Spells budget field (written.flatMap WrittenPart.tokens)
      (.parts (written.map WrittenPart.toPart)) := by
  induction written with
  | nil => exact .done
  | cons part written ih =>
    rcases List.forall_mem_cons.1 each with ⟨clause, others⟩
    have spelled := Spells.part part.joins part.modifies clause (ih others)
    simpa [WrittenPart.tokens] using spelled

theorem Arranged.spells {tokens : Tokens} {phrase : Phrase}
    (arranged : Arranged budget field tokens phrase) : Spells budget field tokens phrase := by
  induction arranged with
  | operand spelled =>
    cases spelled with
    | word read suffixes => exact .word read suffixes
    | quoted value read suffixes => exact .quoted value read suffixes
    | range value read suffixes => exact .range value read suffixes
  | parentheses opens _ closes suffixes ih => exact .parentheses opens ih closes suffixes
  | unnamed _ ih => exact .unnamed ih
  | named names separates _ ih => exact .named names separates ih
  | @sequence _ _ first others leads _ ih =>
    rcases List.forall_mem_cons.1 ih with ⟨clause, rest⟩
    have spelled := Spells.sequence first.modifies clause (spells_written rest)
    rcases first with ⟨⟨conjunction, modifier, query⟩, joint, sign, tokens, joins, modifies⟩
    obtain rfl : conjunction = .none := leads
    obtain rfl : joint = [] := List.map_eq_nil_iff.1 (List.mem_singleton.1 joins)
    rw [assemble_eq_byPosition] at spelled
    simpa [WrittenPart.tokens] using spelled

end

/-! ## Whole texts -/

/-- A text is read as a query exactly when its tokens are arranged as that query: at every level of
parentheses the clauses are the members of a group in their order, each excluded, demanded or
optional as its modifier and the conjunctions beside it say, and only a single clause without a
modifier is no group. -/
theorem Query.parse_eq_ok_iff_arranged {text field : Text} {query : Query} :
    Query.parse text field = .ok query ↔
      ∃ scanned, scan text = .ok scanned ∧
        Arranged maxNesting field scanned.tokens (.sequence query) := by
  rw [Query.parse_eq_ok_iff]
  constructor
  · rintro ⟨scanned, scans, spelled⟩
    exact ⟨scanned, scans, spelled.arranges⟩
  · rintro ⟨scanned, scans, arranged⟩
    exact ⟨scanned, scans, arranged.spells⟩

end AlarmQuery
