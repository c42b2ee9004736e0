import AlarmQuery.Query.Parse
import Mathlib.Tactic.Common

/-!
# Derivations of queries

`Derives budget field tokens phrase` is the grammar of queries as a relation between tokens and
what they are read as.  A part of a query is derived from exactly its own tokens, so facts about
accepted queries are proved by induction on derivations, without the readers and what they leave
behind.  The relation leaves open which suffixes and boosts belong to an operand, which no such
fact depends on.
-/

namespace AlarmQuery

/-! ## The grammar -/

/-- The token in front of a colon names a field. -/
def Names (token : Placed Token) (name : Text) : Prop :=
  (∃ word, token.value = .term word ∧ unescapeAt token.position word = .ok name) ∨
    (token.value = .star ∧ name = ['*'])

/-- A token stands for a condition in a field. -/
inductive Denotes (field : Text) (slop : Option Text) (token : Placed Token) : Condition → Prop
  | quoted {contents text} (value : token.value = .quoted contents)
      (read : unescapeAt (token.position + 1) contents = .ok text) :
      Denotes field slop token (.term text)
  | range {lower upper lowerInclusive upperInclusive condition}
      (value : token.value = .range lower upper lowerInclusive upperInclusive)
      (read : rangeCondition lower upper lowerInclusive upperInclusive = .ok condition) :
      Denotes field slop token condition
  | word {condition} (read : wordCondition? field slop token = some (.ok condition)) :
      Denotes field slop token condition

/-- A slop or a boost. -/
def Token.IsSuffix (token : Token) : Prop :=
  (∃ number, token = .slop number) ∨ ∃ number, token = .boost number

/-- How a conjunction is written. -/
def Conjunction.spellings : Conjunction → List (List Token)
  | .none => [[]]
  | .and => [[.and]]
  | .or => [[.or]]

/-- How a modifier is written. -/
def Modifier.spellings : Modifier → List (List Token)
  | .none => [[]]
  | .required => [[.plus]]
  | .prohibited => [[.minus], [.not]]

/-- A part of a query. -/
inductive Phrase
  /-- What may stand behind the name of a field. -/
  | body (query : Query)
  | clause (query : Query)
  /-- The clauses that follow the first one. -/
  | parts (parts : List Part)
  | sequence (query : Query)

/-- The tokens are a phrase about a field, in which parentheses are nested at most as deep as
`budget` says. -/
inductive Derives : (budget : Nat) → (field : Text) → Tokens → Phrase → Prop
  | operand {budget field token suffix slop condition boost}
      (meaning : Denotes field slop token condition)
      (suffixes : ∀ mark ∈ suffix, mark.value.IsSuffix) :
      Derives budget field (token :: suffix)
        (.body ((Query.leaf ⟨field, condition⟩).boostedBy boost))
  | parentheses {budget field opening content closing suffix query boost}
      (opens : opening.value = .openParen)
      (inner : Derives budget field content (.sequence query))
      (closes : closing.value = .closeParen)
      (suffixes : ∀ mark ∈ suffix, mark.value.IsSuffix) :
      Derives (budget + 1) field (opening :: (content ++ closing :: suffix))
        (.body (query.boostedBy boost))
  | unnamed {budget field tokens query} (body : Derives budget field tokens (.body query)) :
      Derives budget field tokens (.clause query)
  | named {budget field name token colon tokens query} (names : Names token name)
      (separates : colon.value = .colon) (body : Derives budget name tokens (.body query)) :
      Derives budget field (token :: colon :: tokens) (.clause query)
  | done {budget field} : Derives budget field [] (.parts [])
  | part {budget field conjunction modifier joint sign tokens others query parts}
      (joins : joint.map Placed.value ∈ Conjunction.spellings conjunction)
      (modifies : sign.map Placed.value ∈ Modifier.spellings modifier)
      (clause : Derives budget field tokens (.clause query))
      (rest : Derives budget field others (.parts parts)) :
      Derives budget field (joint ++ (sign ++ (tokens ++ others)))
        (.parts (⟨conjunction, modifier, query⟩ :: parts))
  | sequence {budget field modifier sign tokens others query parts}
      (modifies : sign.map Placed.value ∈ Modifier.spellings modifier)
      (clause : Derives budget field tokens (.clause query))
      (rest : Derives budget field others (.parts parts)) :
      Derives budget field (sign ++ (tokens ++ others))
        (.sequence (assemble ⟨.none, modifier, query⟩ parts))

end AlarmQuery
