import AlarmQuery.Clause.Draft
import AlarmQuery.Yaml.Read
import AlarmQuery.Yaml.Scalar

/-!
# Clauses in YAML

A list of clauses is a sequence of mappings with a member for each key of a clause.  Any scalar
may be a text, whatever else it could stand for.
-/

namespace AlarmQuery

namespace Clause

/-! ## Reading -/

/-- The text that a value is. -/
def textOfYaml? : Yaml → Option Text
  | .scalar _ _ text => some text
  | _ => none

/-- The truth value that a value is.  A word between quotes is none. -/
def boolOfYaml? : Yaml → Option Bool
  | .scalar .plain _ word => Yaml.ofTruthWord? word
  | _ => none

/-- The negation with a name in a file, where it has no short names. -/
def storedNegation? (name : Text) : Option Negation :=
  [Negation.is, .isNot].find? fun negation => negation.name = name

/-- The negation that a value is: its name, or its name as a tag of no value. -/
def negationOfYaml? : Yaml → Option Negation
  | .scalar style (some ('!' :: name)) text =>
    if style = .plain ∧ Yaml.isNullWord text then storedNegation? name else none
  | .scalar _ _ name => storedNegation? name
  | _ => none

/-- Adds a member of a mapping to a draft.  A member without a key of that name counts for
nothing. -/
def Draft.addYaml? (draft : Draft) (name : Text) (value : Yaml) : Option Draft :=
  match Key.ofName? name with
  | none => some draft
  | some key =>
    if draft.knows key then none
    else match key with
      | .negation => (negationOfYaml? value).map fun found => { draft with negation := found }
      | .field => (textOfYaml? value).map fun found => { draft with field := found }
      | .term => (textOfYaml? value).map fun found => { draft with term := found }
      | .upTo => (textOfYaml? value).map fun found => { draft with upTo := found }
      | .literal => (boolOfYaml? value).map fun found => { draft with literal := found }

/-- The clause that a value is: a mapping, or a sequence of the values of its keys in their
order. -/
def ofYaml? : Yaml → Option Clause
  | .mapping members => do
    let draft ← members.foldlM (fun (draft : Draft) (name, value) => do
      draft.addYaml? (← textOfYaml? name) value) {}
    return draft.complete (← draft.field)
  | .sequence items => do
    if Key.all.length < items.length then none
    let draft ← (Key.all.zip items).foldlM (fun (draft : Draft) (key, value) =>
      draft.addYaml? key.name value) {}
    return draft.complete (← draft.field)
  | _ => none

/-- The clauses that a value is.  An empty value is an empty list. -/
def listOfYaml? : Yaml → Option (List Clause)
  | .sequence items => items.mapM ofYaml?
  | .scalar .plain _ [] => some []
  | _ => none

/-- The clauses that a YAML text is. -/
def readYaml? (text : Text) : Option (List Clause) := (Yaml.ofText? text).bind listOfYaml?

/-! ## Writing -/

/-- The value of a key, and the end of its line. -/
def yamlLine (clause : Clause) : Key → Text
  | .negation => Yaml.scalarLine 4 clause.negation.name
  | .field => Yaml.scalarLine 4 clause.field
  | .term => Yaml.scalarLine 4 clause.term
  | .upTo => Yaml.scalarLine 4 clause.upTo
  | .literal => (if clause.literal then "true".toList else "false".toList) ++ ['\n']

/-- A clause as an entry of a sequence. -/
def yamlText (clause : Clause) : Text :=
  Key.all.flatMap fun key =>
    (if key = .negation then ['-', ' '] else [' ', ' ']) ++ key.name ++
      ':' :: ' ' :: clause.yamlLine key

/-- Clauses as a sequence. -/
def listToYaml (clauses : List Clause) : Text :=
  match clauses with
  | [] => "[]\n".toList
  | clauses => clauses.flatMap yamlText

end Clause

end AlarmQuery
