import AlarmQuery.Query.Operand
import AlarmQuery.Token.Scan

/-!
# From a text to a query

A query is a sequence of clauses.  A conjunction may stand between two clauses and a modifier
before each.  A clause is an operand or a query in parentheses, with the field that it is about in
front.  A clause without a field of its own is about the field of what surrounds it.

Parentheses nest as deep as a budget allows, and the readers are defined by recursion on the
budget: inside parentheses one level less is left.
-/

namespace AlarmQuery

/-- What joins a clause to the one before it. -/
inductive Conjunction
  | none
  | and
  | or
deriving DecidableEq, Repr

/-- What is demanded of a clause. -/
inductive Modifier
  | none
  | required
  | prohibited
deriving DecidableEq, Repr

/-- A clause of a sequence with what stands before it. -/
structure Part where
  conjunction : Conjunction
  modifier : Modifier
  query : Query

/-! ## Sequences of clauses -/

/-- How the member that a part becomes takes part in the group. -/
def Part.occur (part : Part) : Occur :=
  match part.modifier with
  | .prohibited => .mustNot
  | .required => .must
  | .none => if part.conjunction = .and then .must else .should

/-- Demands a member, unless it is prohibited. -/
def demand (member : Occur × Query) : Occur × Query :=
  if member.1 = .mustNot then member else (.must, member.2)

/-- Adds a part to members that stand in reverse order.  An `AND` demands the clauses on both of
its sides. -/
def addPart (members : List (Occur × Query)) (part : Part) : List (Occur × Query) :=
  let earlier := if part.conjunction = .and then members.modifyHead demand else members
  (part.occur, part.query) :: earlier

/-- The members of the group that a sequence of parts is. -/
def groupMembers (parts : List Part) : List (Occur × Query) := (parts.foldl addPart []).reverse

/-- The query that a sequence of parts is.  A single clause without a modifier is no group. -/
def assemble (first : Part) (others : List Part) : Query :=
  if others.isEmpty && first.modifier = .none then first.query
  else .group (groupMembers (first :: others))

/-- Takes a conjunction if one comes next. -/
def takeConjunction : Tokens → Conjunction × Tokens
  | [] => (.none, [])
  | token :: rest =>
    match token.value with
    | .and => (.and, rest)
    | .or => (.or, rest)
    | _ => (.none, token :: rest)

/-- Takes a modifier if one comes next. -/
def takeModifier : Tokens → Modifier × Tokens
  | [] => (.none, [])
  | token :: rest =>
    match token.value with
    | .plus => (.required, rest)
    | .minus => (.prohibited, rest)
    | .not => (.prohibited, rest)
    | _ => (.none, token :: rest)

/-- Whether one more clause begins here, with a conjunction or a modifier or without. -/
def continues : Tokens → Bool
  | [] => false
  | token :: _ =>
    match token.value with
    | .closeParen => false
    | .colon => false
    | .boost _ => false
    | .slop _ => false
    | _ => true

theorem length_takeConjunction (tokens : Tokens) :
    (takeConjunction tokens).2.length ≤ tokens.length := by
  cases tokens with
  | nil => simp [takeConjunction]
  | cons token rest => simp only [takeConjunction]; split <;> simp

theorem length_takeModifier (tokens : Tokens) :
    (takeModifier tokens).2.length ≤ tokens.length := by
  cases tokens with
  | nil => simp [takeModifier]
  | cons token rest => simp only [takeModifier]; split <;> simp

/-- Reads the clauses that follow the first one. -/
def readParts (clause : Reader Query) (tokens : Tokens) : Reading (List Part) :=
  if continues tokens then
    let conjunction := takeConjunction tokens
    let modifier := takeModifier conjunction.2
    match _read : clause.run modifier.2 with
    | .error fault => .error fault
    | .ok (query, rest) =>
      (readParts clause rest).map fun (others, behind) =>
        (⟨conjunction.1, modifier.1, query⟩ :: others, behind)
  else .ok ([], tokens)
termination_by tokens.length
decreasing_by
  have progress := clause.progress _ _read
  have behindConjunction : conjunction.2.length ≤ tokens.length := length_takeConjunction tokens
  have behindModifier : modifier.2.length ≤ conjunction.2.length := length_takeModifier _
  omega

theorem within_readParts (clause : Reader Query) (tokens : Tokens) :
    (readParts clause tokens).Within tokens := by
  intro parts behind read
  induction size : tokens.length using Nat.strongRecOn generalizing tokens parts with
  | _ _ ih =>
    subst size
    unfold readParts at read
    split at read
    · dsimp only at read
      split at read
      · simp at read
      · rename_i query rest found
        have progress := clause.progress _ found
        have conjunction := length_takeConjunction tokens
        have modifier := length_takeModifier (takeConjunction tokens).2
        cases others : readParts clause rest with
        | error => simp [others, Except.map] at read
        | ok result =>
          simp only [others, Except.map, Except.ok.injEq, Prod.mk.injEq] at read
          obtain ⟨_, rfl⟩ := read
          have := ih rest.length (by omega) rest others rfl
          omega
    · simp only [Except.ok.injEq, Prod.mk.injEq] at read
      exact Nat.le_of_eq (read.2 ▸ rfl)

/-- Reads a sequence of clauses, at least one. -/
def readSequence (clause : Reader Query) (tokens : Tokens) : Reading Query :=
  let modifier := takeModifier tokens
  match clause.run modifier.2 with
  | .error fault => .error fault
  | .ok (query, rest) =>
    (readParts clause rest).map fun (others, behind) =>
      (assemble ⟨.none, modifier.1, query⟩ others, behind)

theorem progresses_readSequence (clause : Reader Query) (tokens : Tokens) :
    (readSequence clause tokens).Progresses tokens := by
  intro query behind read
  have modifier := length_takeModifier tokens
  unfold readSequence at read
  dsimp only at read
  split at read
  · simp at read
  · rename_i first rest found
    have progress := clause.progress _ found
    cases others : readParts clause rest with
    | error => simp [others, Except.map] at read
    | ok result =>
      simp only [others, Except.map, Except.ok.injEq, Prod.mk.injEq] at read
      obtain ⟨_, rfl⟩ := read
      have := within_readParts clause rest others
      omega

/-- The reader of a sequence of clauses. -/
def sequence (clause : Reader Query) : Reader Query :=
  ⟨readSequence clause, progresses_readSequence clause⟩

/-! ## Clauses -/

/-- Reads an operand or what stands in parentheses.  Without a reader of `inner` queries no more
parentheses are allowed. -/
def readBody (stop : Nat) (inner : Option (Text → Reader Query)) (field : Text)
    (tokens : Tokens) : Reading Query :=
  match tokens with
  | [] => readOperand stop field []
  | token :: rest =>
    if token.value = .openParen then
      match inner with
      | none => .error ⟨.nestedTooDeeply, token.position⟩
      | some inner =>
        match (inner field).run rest with
        | .error fault => .error fault
        | .ok (query, behind) =>
          match behind with
          | [] => .error (unexpected stop .closeParen [])
          | closing :: behind =>
            if closing.value = .closeParen then .ok (withBoost query behind)
            else .error (unexpected stop .closeParen (closing :: behind))
    else readOperand stop field (token :: rest)

/-- The field in front of a clause, if there is one, and the tokens behind its colon. -/
def takeField? : Tokens → Option (Except (Placed Fault) Text × Tokens)
  | token :: colon :: rest =>
    if colon.value = .colon then
      match token.value with
      | .term word => some (unescapeAt token.position word, rest)
      | .star => some (.ok ['*'], rest)
      | _ => none
    else none
  | _ => none

/-- Reads a clause with the field in front of it.  Without one it is about `field`. -/
def readClause (stop : Nat) (inner : Option (Text → Reader Query)) (field : Text)
    (tokens : Tokens) : Reading Query :=
  match takeField? tokens with
  | none => readBody stop inner field tokens
  | some (.error fault, _) => .error fault
  | some (.ok named, rest) => readBody stop inner named rest

theorem progresses_readBody (stop : Nat) (inner : Option (Text → Reader Query)) (field : Text)
    (tokens : Tokens) : (readBody stop inner field tokens).Progresses tokens := by
  intro query behind read
  cases tokens with
  | nil => exact progresses_readOperand stop field [] read
  | cons token rest =>
    unfold readBody at read
    dsimp only at read
    split at read
    · split at read
      · simp at read
      · rename_i reader
        split at read
        · simp at read
        · rename_i content remaining found
          have progress := (reader field).progress _ found
          split at read
          · simp at read
          · rename_i closing afterClosing
            split at read
            · have boost := length_withBoost content afterClosing
              rw [Except.ok.inj read] at boost
              simp only [List.length_cons] at progress boost ⊢
              omega
            · simp at read
    · exact progresses_readOperand stop field _ read

theorem length_of_takeField? {tokens rest : Tokens} {named : Except (Placed Fault) Text}
    (taken : takeField? tokens = some (named, rest)) : rest.length < tokens.length := by
  unfold takeField? at taken
  split at taken
  · split at taken
    · split at taken
      · simp only [Option.some.injEq, Prod.mk.injEq] at taken
        simp only [← taken.2, List.length_cons]
        omega
      · simp only [Option.some.injEq, Prod.mk.injEq] at taken
        simp only [← taken.2, List.length_cons]
        omega
      · simp at taken
    · simp at taken
  · simp at taken

theorem progresses_readClause (stop : Nat) (inner : Option (Text → Reader Query)) (field : Text)
    (tokens : Tokens) : (readClause stop inner field tokens).Progresses tokens := by
  intro query behind read
  unfold readClause at read
  split at read
  · exact progresses_readBody stop inner field tokens read
  · simp at read
  · rename_i named rest taken
    have := progresses_readBody stop inner named rest read
    have := length_of_takeField? taken
    omega

/-- The reader of a clause. -/
def clause (stop : Nat) (inner : Option (Text → Reader Query)) (field : Text) : Reader Query :=
  ⟨readClause stop inner field, progresses_readClause stop inner field⟩

/-! ## Whole queries -/

/-- The reader of a query about a field, in which parentheses may be nested as deep as `budget`
says. -/
def queryReader (stop : Nat) : (budget : Nat) → Text → Reader Query
  | 0, field => sequence (clause stop none field)
  | budget + 1, field => sequence (clause stop (some (queryReader stop budget)) field)

/-- The query that all the tokens of a text are. -/
def Query.ofTokens (scanned : Scanned) (field : Text) : Except (Placed Fault) Query :=
  match (queryReader scanned.stop maxNesting field).run scanned.tokens with
  | .error fault => .error fault
  | .ok (query, []) => .ok query
  | .ok (_, rest) => .error (unexpected scanned.stop .endOfQuery rest)

/-- The query that a text is.  What names no field is about `field`. -/
def Query.parse (text field : Text) : Except (Placed Fault) Query :=
  match scan text with
  | .error fault => .error fault
  | .ok scanned => Query.ofTokens scanned field

end AlarmQuery
