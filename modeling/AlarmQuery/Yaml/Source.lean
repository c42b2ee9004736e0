import AlarmQuery.Yaml.Basic

/-!
# Places in a YAML text

The layout of a YAML text is part of its meaning, so a reader knows the line and the column at
which it stands.  A key, and an entry of a sequence, may begin only where nothing but punctuation
stands before it on its line.
-/

namespace AlarmQuery

namespace Yaml

/-- A place in a text and what has been read before it. -/
structure Source where
  /-- The text that is still to be read. -/
  rest : Text
  line : Nat := 0
  column : Nat := 0
  /-- The number of characters before the place. -/
  index : Nat := 0
  /-- Whether a key or an entry of a sequence may begin here. -/
  fresh : Bool := true
  /-- The values that were given a name, the latest first. -/
  named : List (Text × Yaml) := []

/-- Whether a text begins with a line that separates documents. -/
def atMarker (text : Text) : Bool :=
  (text.take 3 == "---".toList || text.take 3 == "...".toList) && atGap (text.drop 3)

/-- How many characters separate a text from what it says next, and whether a key may begin there.
Comments go up to the end of their line.  Between brackets a new line changes nothing, elsewhere
keys may begin on it, and tabs may not indent it. -/
def gap (inFlow fresh inComment : Bool) : Text → Nat × Bool
  | [] => (0, fresh)
  | c :: rest =>
    if isBreak c then
      let behind := gap inFlow (fresh || !inFlow) false rest
      (behind.1 + 1, behind.2)
    else if inComment || c == '#' then
      let behind := gap inFlow fresh true rest
      (behind.1 + 1, behind.2)
    else if c == ' ' || (c == '\t' && (inFlow || !fresh)) then
      let behind := gap inFlow fresh false rest
      (behind.1 + 1, behind.2)
    else (0, fresh)

namespace Source

/-- The place so many characters later. -/
def advance : (count : Nat) → Source → Source
  | 0, source => source
  | count + 1, source =>
    match source.rest with
    | [] => source
    | c :: rest =>
      advance count
        { source with
          rest
          line := if isBreak c then source.line + 1 else source.line
          column := if isBreak c then 0 else source.column + 1
          index := source.index + 1 }

/-- The place of the next value or punctuation. -/
def toContent (inFlow : Bool) (source : Source) : Source :=
  let gap := gap inFlow source.fresh false source.rest
  { source.advance gap.1 with fresh := gap.2 }

/-- The next value or punctuation behind so many characters, where a key may begin if `fresh`. -/
def skip (inFlow : Bool) (count : Nat) (fresh : Bool) (source : Source) : Source :=
  { source.advance count with fresh }.toContent inFlow

/-- The next value or punctuation in `rest`, which is an end of the text ahead. -/
def skipTo (inFlow : Bool) (rest : Text) (fresh : Bool) (source : Source) : Source :=
  source.skip inFlow (source.rest.length - rest.length) fresh

/-- Whether the document ends here. -/
def atEnd (source : Source) : Bool :=
  source.rest.isEmpty || (source.column == 0 && atMarker source.rest)

/-- Whether an indicator stands here that needs a gap behind it. -/
def isAt (indicator : Char) (source : Source) : Bool :=
  match source.rest with
  | c :: rest => c == indicator && atGap rest
  | [] => false

/-- Whether what was read from `start` up to here is a key.  A key is short, stands on one line,
and a colon follows it. -/
def endsKey (inFlow : Bool) (start source : Source) : Bool :=
  start.fresh && start.line == source.line && source.index ≤ start.index + 1024 &&
    match source.rest with
    | ':' :: rest => inFlow || atGap rest
    | _ => false

end Source

end Yaml

end AlarmQuery
