import AlarmQuery.Yaml.ReadScalar

/-!
# Reading YAML

A document is one value.  Collections are indented, and the column of their entries tells where
they end, or they stand between brackets.  As every value takes at least one character of the text
or is the empty value in front of punctuation, the length of the text bounds how long reading
takes, and the budget of the readers is a multiple of it.
-/

namespace AlarmQuery

namespace Yaml

/-! ## Properties -/

/-- What may stand in front of a value: a tag, and a name by which it can be repeated. -/
structure Properties where
  tag : Option Text := none
  name : Option Text := none
deriving DecidableEq, Repr

namespace Properties

/-- Whether nothing stands in front of a value. -/
def isEmpty (properties : Properties) : Bool :=
  properties.tag.isNone && properties.name.isNone

/-- Gives a value its properties. -/
def apply (properties : Properties) (value : Yaml) (source : Source) : Yaml × Source :=
  let value := match value with
    | .scalar style tag text => .scalar style (properties.tag.or tag) text
    | value => value
  match properties.name with
  | none => (value, source)
  | some name => (value, { source with named := (name, value) :: source.named })

/-- Reads one property, if there is one. -/
def readOne (inFlow : Bool) (properties : Properties) (source : Source) :
    Option (Properties × Source) :=
  match source.rest with
  | '&' :: rest =>
    if properties.name.isSome then none
    else (takeName? rest).map fun (name, rest) =>
      ({ properties with name }, source.skipTo inFlow rest false)
  | '!' :: rest =>
    if properties.tag.isSome then none
    else (takeTag? inFlow rest).map fun (tag, rest) =>
      ({ properties with tag }, source.skipTo inFlow rest false)
  | _ => some (properties, source)

/-- Reads the properties that stand on one line.  Between brackets they may stand on several. -/
def read (inFlow : Bool) (source : Source) : Option (Properties × Source) := do
  let (first, behind) ← readOne inFlow {} source
  if !inFlow && behind.line != source.line then return (first, behind)
  else readOne inFlow first behind

end Properties

/-! ## Values -/

/-- Whether a value that is empty may end here between brackets. -/
def endsFlowValue (source : Source) : Bool :=
  match source.rest with
  | c :: _ => c == ',' || c == ']' || c == '}' || c == ':'
  | [] => false

/-- Reads a scalar that is no collection, or repeats a value that has a name. -/
def readScalar (inFlow : Bool) (parent : Int) (source : Source) : Option (Yaml × Source) :=
  let quoted (quote : Char) (rest : Text) : Option (Yaml × Source) :=
    (takeQuoted quote rest).map fun (text, rest) =>
      (.scalar .quoted none text, source.skipTo inFlow rest false)
  match source.rest with
  | '*' :: rest => do
    let (name, rest) ← takeName? rest
    let (_, value) ← source.named.find? fun named => named.1 = name
    return (value, source.skipTo inFlow rest false)
  | '\'' :: rest => quoted '\'' rest
  | '"' :: rest => quoted '"' rest
  | text =>
    if beginsPlain inFlow text then
      (takePlain inFlow (parent + 1).toNat text).map fun (contents, rest, broken) =>
        (.scalar .plain none contents, source.skipTo inFlow rest broken)
    else none

mutual

/-- Reads a value between brackets, or one that may be a key. -/
def readFlow (inFlow : Bool) (parent : Int) : (budget : Nat) → Source → Option (Yaml × Source)
  | 0, _ => none
  | budget + 1, source =>
    match source.rest with
    | '[' :: _ =>
      (readFlowItems parent budget (source.skip true 1 true)).map fun (items, behind) =>
        (.sequence items, { behind with fresh := false }.toContent inFlow)
    | '{' :: _ =>
      (readFlowMembers parent budget (source.skip true 1 true)).map fun (members, behind) =>
        (.mapping members, { behind with fresh := false }.toContent inFlow)
    | _ => readScalar inFlow parent source

/-- Reads a value with its properties between brackets.  With properties it may be empty. -/
def readFlowValue (parent : Int) : (budget : Nat) → Source → Option (Yaml × Source)
  | 0, _ => none
  | budget + 1, source => do
    let (properties, behind) ← Properties.read true source
    if !properties.isEmpty && endsFlowValue behind then return properties.apply empty behind
    else
      let (value, behind) ← readFlow true parent budget behind
      return properties.apply value behind

/-- Reads the value of a key between brackets behind its colon, if there is a colon. -/
def readFlowTarget (parent : Int) : (budget : Nat) → Source → Option (Yaml × Source)
  | 0, _ => none
  | budget + 1, source =>
    match source.rest with
    | ':' :: _ =>
      let behind := source.skip true 1 false
      if endsFlowValue behind && !behind.isAt ':' then some (empty, behind)
      else readFlowValue parent budget behind
    | _ => some (empty, source)

/-- Reads the items of a sequence between brackets up to the closing one.  An item may be a mapping
of one key. -/
def readFlowItems (parent : Int) : (budget : Nat) → Source → Option (List Yaml × Source)
  | 0, _ => none
  | budget + 1, source =>
    match source.rest with
    | ']' :: _ => some ([], source.advance 1)
    | _ => do
      let (item, behind) ←
        if source.isAt '?' then do
          let (member, behind) ← readExplicit parent budget source
          pure (.mapping [member], behind)
        else do
          let (value, behind) ← readFlowValue parent budget source
          if Source.endsKey true source behind then
            let (target, behind) ← readFlowTarget parent budget behind
            pure (.mapping [(value, target)], behind)
          else pure (value, behind)
      match behind.rest with
      | ',' :: _ =>
        let (others, behind) ← readFlowItems parent budget (behind.skip true 1 true)
        return (item :: others, behind)
      | ']' :: _ => return ([item], behind.advance 1)
      | _ => none

/-- Reads the members of a mapping between brackets up to the closing one. -/
def readFlowMembers (parent : Int) : (budget : Nat) → Source → Option (List (Yaml × Yaml) × Source)
  | 0, _ => none
  | budget + 1, source =>
    match source.rest with
    | '}' :: _ => some ([], source.advance 1)
    | _ => do
      let (member, behind) ←
        if source.isAt '?' then readExplicit parent budget source
        else do
          let (key, behind) ← readFlowValue parent budget source
          if Source.endsKey true source behind then
            let (target, behind) ← readFlowTarget parent budget behind
            pure ((key, target), behind)
          else pure ((key, empty), behind)
      match behind.rest with
      | ',' :: _ =>
        let (others, behind) ← readFlowMembers parent budget (behind.skip true 1 true)
        return (member :: others, behind)
      | '}' :: _ => return ([member], behind.advance 1)
      | _ => none

/-- Reads a member between brackets behind the question mark in front of its key. -/
def readExplicit (parent : Int) : (budget : Nat) → Source → Option ((Yaml × Yaml) × Source)
  | 0, _ => none
  | budget + 1, source => do
    let behind := source.skip true 1 false
    let (key, behind) ←
      if endsFlowValue behind then pure (empty, behind) else readFlowValue parent budget behind
    let (target, behind) ← readFlowTarget parent budget behind
    return ((key, target), behind)

end

mutual

/-- Reads a value inside a collection whose entries stand at the column `parent`.  It stands
further to the right, but the entries of a sequence that is the value of a key may stand below
that key.  Where no value stands, it is empty. -/
def readBlock (parent : Int) (belowKey : Bool) : (budget : Nat) → Source → Option (Yaml × Source)
  | 0, _ => none
  | budget + 1, source =>
    if source.atEnd then some (empty, source)
    else if source.isAt '-' &&
        (parent < source.column || (belowKey && parent == source.column)) then
      (readEntries source.column (parent == source.column) budget source).map
        fun (items, behind) => (.sequence items, behind)
    else if source.column ≤ parent then some (empty, source)
    else if source.isAt '?' then
      (readMembers source.column budget source).map fun (members, behind) =>
        (.mapping members, behind)
    else do
      let (properties, behind) ← Properties.read false source
      if !properties.isEmpty && (behind.atEnd || behind.line != source.line) then
        let (value, behind) ← readBlock parent belowKey budget behind
        return properties.apply value behind
      else match behind.rest with
        | '|' :: rest => do
          let (text, rest) ← takeBlock false parent rest
          return properties.apply (.scalar .block none text) (behind.skipTo false rest true)
        | '>' :: rest => do
          let (text, rest) ← takeBlock true parent rest
          return properties.apply (.scalar .block none text) (behind.skipTo false rest true)
        | _ =>
          let (value, behind) ←
            if !properties.isEmpty && behind.isAt ':' then pure (empty, behind)
            else readFlow false parent budget behind
          if Source.endsKey false source behind then
            let (members, behind) ← readMembers source.column budget source
            return (.mapping members, behind)
          else return properties.apply value behind

/-- Reads the entries of a sequence at a column.  If they stand below a key, the sequence ends with
the next key. -/
def readEntries (column : Nat) (belowKey : Bool) :
    (budget : Nat) → Source → Option (List Yaml × Source)
  | 0, _ => none
  | budget + 1, source =>
    if !source.fresh then none
    else do
      let (item, behind) ← readBlock column false budget (source.skip false 1 true)
      if behind.atEnd || behind.column < column then return ([item], behind)
      else if behind.column == column && behind.isAt '-' then
        let (others, behind) ← readEntries column belowKey budget behind
        return (item :: others, behind)
      else if behind.column == column && belowKey then return ([item], behind)
      else none

/-- Reads the members of a mapping whose keys stand at a column. -/
def readMembers (column : Nat) : (budget : Nat) → Source → Option (List (Yaml × Yaml) × Source)
  | 0, _ => none
  | budget + 1, source =>
    if !source.fresh then none
    else do
      let (member, behind) ←
        if source.isAt '?' then do
          let (key, behind) ← readBlock column true budget (source.skip false 1 true)
          if !behind.atEnd && behind.column == column && behind.isAt ':' then
            if !behind.fresh then none
            else
              let (value, behind) ← readBlock column true budget (behind.skip false 1 true)
              pure ((key, value), behind)
          else pure ((key, empty), behind)
        else do
          let (properties, behind) ← Properties.read false source
          let (key, behind) ←
            if !properties.isEmpty && behind.isAt ':' then pure (empty, behind)
            else readFlow false column budget behind
          let (key, behind) := properties.apply key behind
          if Source.endsKey false source behind then
            let (value, behind) ← readBlock column true budget (behind.skip false 1 false)
            pure ((key, value), behind)
          else none
      if behind.atEnd || behind.column < column then return ([member], behind)
      else if behind.column == column then
        let (others, behind) ← readMembers column budget behind
        return (member :: others, behind)
      else none

end

/-! ## Documents -/

/-- Whether a character may stand in a text. -/
def isReadable (c : Char) : Bool :=
  c == '\t' || c == '\r' || c == '\x85' || c == '\ufeff' || isPrintable c

/-- The text with every line end a single character.  The two separators of Unicode stay. -/
def uniformBreaks : Text → Text
  | [] => []
  | '\r' :: '\n' :: rest => '\n' :: uniformBreaks rest
  | c :: rest => (if c = '\r' ∨ c = '\x85' then '\n' else c) :: uniformBreaks rest

/-- Reads the lines that say which version of the format a document has, and tells whether there
are any. -/
def skipVersion (source : Source) : Option (Bool × Source) :=
  match source.rest with
  | '%' :: rest =>
    let line := rest.takeWhile fun c => !isBreak c && c != '#'
    let words := (line.splitOn ' ').filter fun word => !word.isEmpty
    if words ∈ [["YAML".toList, "1.1".toList], ["YAML".toList, "1.2".toList]] then
      some (true, source.skip false (line.length + 1) true)
    else none
  | _ => some (false, source)

/-- Whether nothing follows a document but marks of its end. -/
def endsText : (budget : Nat) → Source → Bool
  | 0, _ => false
  | budget + 1, source =>
    source.rest.isEmpty ||
      (source.atEnd && source.rest.head? == some '.' && endsText budget (source.skip false 3 false))

/-- The value of a text with one document.  A text without any is an empty value. -/
def ofText? (text : Text) : Option Yaml := do
  let text := match text with
    | '\ufeff' :: rest => rest
    | text => text
  if !text.all isReadable then none
  let text := uniformBreaks text
  let start : Source := { rest := text }
  let (hasVersion, source) ← skipVersion (start.toContent false)
  let hasMarker := source.atEnd && source.rest.head? == some '-'
  if hasVersion && !hasMarker then none
  let source := if hasMarker then source.skip false 3 false else source
  if source.atEnd && source.rest.head? == some '.' && !hasMarker then none
  let budget := 4 * text.length + 8
  let (value, behind) ← readBlock (-1) false budget source
  if behind.atEnd && endsText (text.length + 1) behind then return value else none

end Yaml

end AlarmQuery
