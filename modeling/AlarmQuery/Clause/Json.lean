import AlarmQuery.Clause.Draft
import AlarmQuery.Json.Read
import AlarmQuery.Text.Quoted

/-!
# Clauses in JSON

A clause is an object with a member for each of its keys, or an array of its values in the order of
its keys.  A list of clauses is read from the left, so that the first thing that is wrong with it
is the one that is reported.  A text is given up as malformed where no value of a key can stand,
whereas of a value it can be told what stands there.
-/

namespace AlarmQuery

/-- What is wrong with a value that should be a list of clauses. -/
inductive DataFault
  /-- A value of another type stands where a type is expected. -/
  | wrongType (found : Json) (expected : Text)
  | missingMember (name : Text)
  | repeatedMember (name : Text)
  /-- No negation has this name. -/
  | unknownNegation (name : Text)
  /-- An array of the values of a clause ends too early. -/
  | tooShort (length : Nat)
  /-- An array of the values of a clause goes on behind them. -/
  | tooLong (length : Nat)
  /-- An object that should be a negation has not exactly one member. -/
  | notSingle

/-- Why a JSON text is no list of clauses. -/
inductive JsonFault
  /-- The text is wrong, or breaks off. -/
  | malformed
  | data (fault : DataFault)

/-- How a message names a value of the wrong type. -/
def Json.describe : Json → Text
  | .null => "null".toList
  | .bool value => "boolean `".toList ++ (Json.bool value).pretty ++ ['`']
  | .number (.integer value) => "integer `".toList ++ Text.ofInt value ++ ['`']
  | .number value => "floating point `".toList ++ Json.numberText value ++ ['`']
  | .string text => "string ".toList ++ text.quoted
  | .array .. => "sequence".toList
  | .object .. => "map".toList
  | .meaningless => []
  | .malformed => []

/-- A name as a message quotes it. -/
def DataFault.quotedName (name : Text) : Text := '`' :: name ++ ['`']

/-- The words in which a fault is reported. -/
def DataFault.message : DataFault → Text
  | .wrongType found expected =>
    "invalid type: ".toList ++ found.describe ++ ", expected ".toList ++ expected
  | .missingMember name => "missing field ".toList ++ quotedName name
  | .repeatedMember name => "duplicate field ".toList ++ quotedName name
  | .unknownNegation name =>
    "unknown variant ".toList ++ quotedName name ++ ", expected ".toList ++
      quotedName Negation.is.name ++ " or ".toList ++ quotedName Negation.isNot.name
  | .tooShort length =>
    "invalid length ".toList ++ Text.ofNat length ++
      ", expected struct SearchClause with 5 elements".toList
  | .tooLong length =>
    "invalid length ".toList ++ Text.ofNat length ++ ", expected fewer elements in array".toList
  | .notSingle => "invalid value: map, expected map with a single key".toList

/-- What is wrong with a value of an unexpected type. -/
def JsonFault.unexpected (expected : Text) : Json → JsonFault
  | .meaningless => .malformed
  | .malformed => .malformed
  | value => .data (.wrongType value expected)

/-- Where a list of clauses is read from. -/
inductive JsonSource
  | text
  | value
deriving DecidableEq, Repr

/-- What is wrong where no value of a key can stand. -/
def JsonSource.misplaced (source : JsonSource) (fault : JsonFault) : JsonFault :=
  match source with
  | .text => .malformed
  | .value => fault

namespace Clause

/-! ## Reading -/

/-- The text that a value is. -/
def textOfJson : Json → Except JsonFault Text
  | .string text => .ok text
  | value => .error (.unexpected "a string".toList value)

/-- The truth value that a value is. -/
def boolOfJson : Json → Except JsonFault Bool
  | .bool value => .ok value
  | value => .error (.unexpected "a boolean".toList value)

/-- The negation with a name in a JSON text, where it has no short names. -/
def negationOfName (name : Text) : Except JsonFault Negation :=
  match [Negation.is, .isNot].find? fun negation => negation.name = name with
  | some negation => .ok negation
  | none => .error (.data (.unknownNegation name))

/-- The negation that a member of an object is: its name, with null as its value. -/
def negationOfMember (name : Text) (value : Json) : Except JsonFault Negation := do
  let negation ← negationOfName name
  match value with
  | .null => return negation
  | value => .error (.unexpected "unit".toList value)

/-- The negation that a value is: its name, or an object with its name and null.  A text is read
up to a second member, but the members of a value are counted first. -/
def negationOfJson (source : JsonSource) : Json → Except JsonFault Negation
  | .string name => negationOfName name
  | .object [(name, value)] closed => do
    let negation ← negationOfMember name value
    if closed then return negation else .error .malformed
  | .object [] _ => .error (source.misplaced (.data .notSingle))
  | .object ((name, value) :: _) _ => do
    if source = .text then let _ ← negationOfMember name value
    .error (source.misplaced (.data .notSingle))
  | found => .error (source.misplaced (.unexpected "string or map".toList found))

/-- Adds a member of an object to a draft.  A member without a key of that name counts for
nothing. -/
def Draft.addJson (source : JsonSource) (draft : Draft) (name : Text) (value : Json) :
    Except JsonFault Draft :=
  match Key.ofName? name with
  | none => .ok draft
  | some key =>
    if draft.knows key then .error (.data (.repeatedMember name))
    else match key with
      | .negation => (negationOfJson source value).map fun found => { draft with negation := found }
      | .field => (textOfJson value).map fun found => { draft with field := found }
      | .term => (textOfJson value).map fun found => { draft with term := found }
      | .upTo => (textOfJson value).map fun found => { draft with upTo := found }
      | .literal => (boolOfJson value).map fun found => { draft with literal := found }

/-- The clause with the members of an object. -/
def ofMembers (source : JsonSource) (members : List (Text × Json)) (closed : Bool) :
    Except JsonFault Clause := do
  let draft : Draft ← members.foldlM (fun (draft : Draft) (name, value) =>
    draft.addJson source name value) {}
  if !closed then .error .malformed
  else match draft.field with
    | none => .error (.data (.missingMember Key.field.name))
    | some field => return draft.complete field

/-- Reads the next item of an array, if there is one.  An array that is not closed has to have
one. -/
def nextItem {α : Type} (items : List Json) (closed : Bool) (read : Json → Except JsonFault α) :
    Except JsonFault (Option α × List Json) :=
  match items with
  | [] => if closed then .ok (none, []) else .error .malformed
  | item :: others => (read item).map fun value => (some value, others)

/-- The clause with the items of an array. -/
def ofItems (source : JsonSource) (all : List Json) (closed : Bool) : Except JsonFault Clause := do
  let (negation, items) ← nextItem all closed (negationOfJson source)
  let (field, items) ← nextItem items closed textOfJson
  match field with
  | none => .error (.data (.tooShort 1))
  | some field =>
    let (term, items) ← nextItem items closed textOfJson
    let (upTo, items) ← nextItem items closed textOfJson
    let (literal, items) ← nextItem items closed boolOfJson
    if !items.isEmpty then .error (source.misplaced (.data (.tooLong all.length)))
    else if closed then return Draft.complete { negation, field, term, upTo, literal } field
    else .error .malformed

/-- The clause that a value is. -/
def ofJson (source : JsonSource) : Json → Except JsonFault Clause
  | .object members closed => ofMembers source members closed
  | .array items closed => ofItems source items closed
  | value => .error (.unexpected "struct SearchClause".toList value)

/-- The clauses that a value is. -/
def listOfJson (source : JsonSource) : Json → Except JsonFault (List Clause)
  | .array items closed => do
    let clauses ← items.mapM (ofJson source)
    if closed then return clauses else .error .malformed
  | value => .error (.unexpected "a sequence".toList value)

/-- The clauses that a JSON text is. -/
def readJson (text : Text) : Except JsonFault (List Clause) := do
  let (value, complete) := Json.read text
  let clauses ← listOfJson .text value
  if complete then return clauses else .error .malformed

/-! ## Writing -/

/-- The value of a key. -/
def keyToJson (clause : Clause) : Key → Json
  | .negation => .string clause.negation.name
  | .field => .string clause.field
  | .term => .string clause.term
  | .upTo => .string clause.upTo
  | .literal => .bool clause.literal

/-- A clause as an object with all its keys. -/
def toJson (clause : Clause) : Json :=
  .object (Key.all.map fun key => (key.name, clause.keyToJson key))
    true

/-- Clauses as an array. -/
def listToJson (clauses : List Clause) : Json := .array (clauses.map toJson) true

end Clause

end AlarmQuery
