import AlarmQuery.Decimal.Boost

/-!
# Queries

A query is a tree.  A leaf names a field and a condition on it, a group combines its members, and
a boost gives a part more or less weight.  `Query.induction` is the induction over such trees.
-/

namespace AlarmQuery

/-- How a member takes part in a group. -/
inductive Occur
  /-- The group matches only where the member does. -/
  | must
  /-- The member may match. -/
  | should
  /-- The group matches only where the member does not. -/
  | mustNot
deriving DecidableEq, Repr

namespace Occur

/-- The operator in front of a member. -/
def operator : Occur → Text
  | .must => ['+']
  | .should => []
  | .mustNot => ['-']

/-- The name shown to users. -/
def name : Occur → Text
  | .must => "MUST".toList
  | .should => "SHOULD".toList
  | .mustNot => "MUST_NOT".toList

/-- The occur with a given name. -/
def ofName? (text : Text) : Option Occur :=
  [.must, .should, .mustNot].find? fun occur => occur.name = text

end Occur

/-- A condition on the content of one field.  Texts are unescaped, except those of `wildcard` and
`regexp`, which stay as they are written. -/
inductive Condition
  /-- Exactly this text. -/
  | term (text : Text)
  /-- A text that fits the pattern. -/
  | wildcard (pattern : Text)
  /-- A text that begins so. -/
  | startsWith (beginning : Text)
  /-- A text between two bounds.  Without a bound the range is open on that side. -/
  | range (lower upper : Option Text) (lowerInclusive upperInclusive : Bool)
  /-- A text that the regular expression describes. -/
  | regexp (expression : Text)
  /-- A text that differs little from this one. -/
  | fuzzy (text slop : Text)
  /-- Anything in any field. -/
  | everything
deriving DecidableEq, Repr

/-- A condition and the field that it is about. -/
structure Leaf where
  field : Text
  condition : Condition
deriving DecidableEq, Repr

/-- A query. -/
inductive Query
  | leaf (content : Leaf)
  | group (members : List (Occur × Query))
  | boosted (inner : Query) (boost : Boost)

/-- The name of a kind of condition. -/
def Condition.kind : Condition → Text
  | .term _ => "term".toList
  | .wildcard _ => "wildcard".toList
  | .startsWith _ => "prefix".toList
  | .range .. => "range".toList
  | .regexp _ => "regexp".toList
  | .fuzzy .. => "fuzzy".toList
  | .everything => "match-all".toList

namespace Query

/-- The name of a kind of query. -/
def kind : Query → Text
  | .leaf content => content.condition.kind
  | .group _ => "boolean".toList
  | .boosted .. => "boosted".toList

/-- What holds of every leaf, of every group whose members it holds of and of every boost of a
query it holds of holds of every query. -/
theorem induction {motive : Query → Prop}
    (leaf : ∀ content, motive (.leaf content))
    (group : ∀ members, (∀ member ∈ members, motive member.2) → motive (.group members))
    (boosted : ∀ inner boost, motive inner → motive (.boosted inner boost)) (query : Query) :
    motive query :=
  @Query.rec motive (fun members => ∀ member ∈ members, motive member.2)
    (fun member => motive member.2)
    leaf group boosted
    (fun _ absent => absurd absent List.not_mem_nil)
    (fun _ _ first others member present =>
      (List.mem_cons.1 present).elim (fun same => same ▸ first) (others member))
    (fun _ _ inner => inner) query

end Query

end AlarmQuery
