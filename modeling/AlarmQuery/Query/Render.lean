import AlarmQuery.Query.Basic

/-!
# Queries as text

The text of a query is what users see of it.  Nothing is escaped in it, so it reads back as the
same query only where no text needs escaping.
-/

namespace AlarmQuery

/-- A range with its brackets.  An open side is written `*`. -/
def rangeText (lower upper : Text) (lowerInclusive upperInclusive : Bool) : Text :=
  (if lowerInclusive then '[' else '\x7b') :: lower ++ " TO ".toList ++ upper ++
    [if upperInclusive then ']' else '\x7d']

/-- The text of a condition behind its field. -/
def Condition.text : Condition → Text
  | .term text => text
  | .wildcard pattern => pattern
  | .startsWith beginning => beginning ++ ['*']
  | .range lower upper lowerInclusive upperInclusive =>
    rangeText (lower.getD ['*']) (upper.getD ['*']) lowerInclusive upperInclusive
  | .regexp expression => '/' :: expression ++ ['/']
  | .fuzzy text slop => text ++ '~' :: slop
  | .everything => ['*']

/-- The text of a leaf.  What matches everything is about every field. -/
def Leaf.text (leaf : Leaf) : Text :=
  match leaf.condition with
  | .everything => ['*', ':', '*']
  | condition => leaf.field ++ ':' :: condition.text

namespace Query

/-- A group needs parentheses among other members. -/
def enclose (text : Text) : Query → Text
  | .group _ => '(' :: text ++ [')']
  | _ => text

mutual

/-- The text of a query. -/
def text : Query → Text
  | .leaf content => content.text
  | .group members => Text.join [' '] (memberTexts members)
  | .boosted inner boost => '(' :: inner.text ++ [')', '^'] ++ boost.text

/-- The texts of the members of a group, each behind its operator. -/
def memberTexts : List (Occur × Query) → List Text
  | [] => []
  | (occur, query) :: others => (occur.operator ++ query.enclose query.text) :: memberTexts others

end

/-- The members are written one by one. -/
theorem memberTexts_eq_map (members : List (Occur × Query)) :
    memberTexts members =
      members.map fun member => member.1.operator ++ member.2.enclose member.2.text := by
  induction members with
  | nil => rfl
  | cons member others ih => simp [memberTexts, ih]

end Query

end AlarmQuery
