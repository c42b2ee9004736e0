import AlarmQuery.Query.Reader

/-!
# Operands

An operand is a word, a quoted string or a range with what may stand behind it: a slop makes the
search for a word fuzzy, a boost gives weight to any operand.
-/

namespace AlarmQuery

/-- The query with a boost, if there is one. -/
def Query.boostedBy (query : Query) : Option Boost → Query
  | none => query
  | some boost => .boosted query boost

/-- Takes a slop if one comes next. -/
def takeSlop : Tokens → Option Text × Tokens
  | [] => (none, [])
  | token :: rest =>
    match token.value with
    | .slop number => (some number, rest)
    | _ => (none, token :: rest)

/-- Takes a boost if one comes next. -/
def takeBoost : Tokens → Option Boost × Tokens
  | [] => (none, [])
  | token :: rest =>
    match token.value with
    | .boost number => (some (.ofDecimal number), rest)
    | _ => (none, token :: rest)

/-- Takes what may stand behind a word: a slop and a boost, in either order. -/
def takeSuffix (tokens : Tokens) : Option Text × Option Boost × Tokens :=
  let (slop, behindSlop) := takeSlop tokens
  let (boost, behindBoost) := takeBoost behindSlop
  if slop.isNone && boost.isSome then
    let (slop, behind) := takeSlop behindBoost
    (slop, boost, behind)
  else (slop, boost, behindBoost)

/-- A query with the boost that may stand behind it. -/
def withBoost (query : Query) (tokens : Tokens) : Query × Tokens :=
  let (boost, behind) := takeBoost tokens
  (query.boostedBy boost, behind)

/-- A bound without its escapes.  A lone `*` without quotes leaves the range open. -/
def readBoundText (bound : Bound) : Except (Placed Fault) (Option Text) :=
  if bound.quoted then (unescapeAt (bound.position + 1) bound.text).map some
  else if bound.text = ['*'] then .ok none
  else (unescapeAt bound.position bound.text).map some

/-- The condition that a range stands for. -/
def rangeCondition (lower upper : Bound) (lowerInclusive upperInclusive : Bool) :
    Except (Placed Fault) Condition := do
  let lowerText ← readBoundText lower
  let upperText ← readBoundText upper
  return .range lowerText upperText lowerInclusive upperInclusive

/-- The condition that a word stands for in a field.  Only the search for a word without wildcards
can be fuzzy.  The result is `none` when the token is no word. -/
def wordCondition? (field : Text) (slop : Option Text) (token : Placed Token) :
    Option (Except (Placed Fault) Condition) :=
  match token.value with
  | .star => some (.ok (if field = ['*'] then .everything else .wildcard ['*']))
  | .bareOperator operator => some (.ok (.term [operator]))
  | .term word =>
    some ((unescapeAt token.position word).map fun text =>
      match slop with
      | none => .term text
      | some number => .fuzzy text number)
  | .starred word => some ((unescapeAt token.position word.dropLast).map .startsWith)
  | .pattern word => some (.ok (.wildcard word))
  | .regexp expression => some (.ok (.regexp expression))
  | _ => none

/-- Reads an operand on a field. -/
def readOperand (stop : Nat) (field : Text) (tokens : Tokens) : Reading Query :=
  match tokens with
  | [] => .error (unexpected stop .operand [])
  | token :: rest =>
    match token.value with
    | .quoted contents =>
      (unescapeAt (token.position + 1) contents).map fun text =>
        withBoost (.leaf ⟨field, .term text⟩) (takeSlop rest).2
    | .range lower upper lowerInclusive upperInclusive =>
      (rangeCondition lower upper lowerInclusive upperInclusive).map fun condition =>
        withBoost (.leaf ⟨field, condition⟩) rest
    | _ =>
      let (slop, boost, behind) := takeSuffix rest
      match wordCondition? field slop token with
      | none => .error (unexpected stop .operand tokens)
      | some condition =>
        condition.map fun condition => ((Query.leaf ⟨field, condition⟩).boostedBy boost, behind)

/-! ## What an operand leaves behind it -/

theorem length_takeSlop (tokens : Tokens) : (takeSlop tokens).2.length ≤ tokens.length := by
  cases tokens with
  | nil => simp [takeSlop]
  | cons token rest => simp only [takeSlop]; split <;> simp

theorem length_takeBoost (tokens : Tokens) : (takeBoost tokens).2.length ≤ tokens.length := by
  cases tokens with
  | nil => simp [takeBoost]
  | cons token rest => simp only [takeBoost]; split <;> simp

theorem length_withBoost (query : Query) (tokens : Tokens) :
    (withBoost query tokens).2.length ≤ tokens.length :=
  length_takeBoost tokens

theorem length_takeSuffix (tokens : Tokens) :
    (takeSuffix tokens).2.2.length ≤ tokens.length := by
  have slop := length_takeSlop tokens
  have boost := length_takeBoost (takeSlop tokens).2
  have late := length_takeSlop (takeBoost (takeSlop tokens).2).2
  simp only [takeSuffix]
  split <;> dsimp only <;> omega

/-- An operand has a token. -/
theorem progresses_readOperand (stop : Nat) (field : Text) (tokens : Tokens) :
    (readOperand stop field tokens).Progresses tokens := by
  intro query behind read
  cases tokens with
  | nil => simp [readOperand] at read
  | cons token rest =>
    suffices behind.length ≤ rest.length by simpa [Nat.lt_succ_iff] using this
    simp only [readOperand] at read
    split at read
    · rename_i contents _
      cases found : unescapeAt (token.position + 1) contents with
      | error => simp [found, Except.map] at read
      | ok text =>
        simp only [found, Except.map, Except.ok.injEq] at read
        have boost := length_withBoost (.leaf ⟨field, .term text⟩) (takeSlop rest).2
        rw [read] at boost
        exact Nat.le_trans boost (length_takeSlop rest)
    · rename_i lower upper lowerInclusive upperInclusive _
      cases found : rangeCondition lower upper lowerInclusive upperInclusive with
      | error => simp [found, Except.map] at read
      | ok condition =>
        simp only [found, Except.map, Except.ok.injEq] at read
        have := length_withBoost (.leaf ⟨field, condition⟩) rest
        rwa [read] at this
    · split at read
      · simp at read
      · rename_i condition _
        cases condition with
        | error => simp [Except.map] at read
        | ok condition =>
          simp only [Except.map, Except.ok.injEq, Prod.mk.injEq] at read
          exact read.2 ▸ length_takeSuffix rest

end AlarmQuery
