import AlarmQuery.Command.Basic

/-!
# Command lines

The words of a command line make a request.  Options stand in any order, each at most once, and
options for any command may also stand in front of the name of the command.  A query may begin
with a hyphen, as long as it is no option.
-/

namespace AlarmQuery

/-- The names of the commands. -/
inductive CommandName
  | parse
  | check
  | toQuery
  | fields
deriving DecidableEq, Repr

namespace CommandName

/-- The word for a command. -/
def name : CommandName → Text
  | .parse => "parse".toList
  | .check => "check".toList
  | .toQuery => "to-query".toList
  | .fields => "fields".toList

/-- The command with a given name. -/
def ofName? (text : Text) : Option CommandName :=
  [.parse, .check, .toQuery, .fields].find? fun command => command.name = text

/-- Whether a query belongs to a command. -/
def takesQuery : CommandName → Bool
  | .parse => true
  | .check => true
  | .toQuery => false
  | .fields => false

end CommandName

namespace Arguments

/-- An option. -/
inductive Switch
  | config
  | verbose
  | help
  | file
  | defaultField
  | format
deriving DecidableEq, Repr

namespace Switch

/-- The options that a command has, or those in front of the name of a command. -/
def known : Option CommandName → List Switch
  | none => [.config, .verbose, .help]
  | some .parse => [.config, .verbose, .help, .defaultField, .format]
  | some .check => [.config, .verbose, .help, .defaultField]
  | some .toQuery => [.config, .verbose, .help, .file]
  | some .fields => [.config, .verbose, .help]

/-- The name of an option behind two hyphens. -/
def name : Switch → Text
  | .config => "config".toList
  | .verbose => "verbose".toList
  | .help => "help".toList
  | .file => "file".toList
  | .defaultField => "default-field".toList
  | .format => "format".toList

/-- The letter of an option behind one hyphen. -/
def letter? : Switch → Option Char
  | .verbose => some 'v'
  | .help => some 'h'
  | .file => some 'f'
  | _ => none

/-- Whether an option has a value. -/
def takesValue : Switch → Bool
  | .verbose => false
  | .help => false
  | _ => true

/-- The option of a command with a name. -/
def ofName? (command : Option CommandName) (text : Text) : Option Switch :=
  (known command).find? fun switch => switch.name = text

/-- The option of a command with a letter. -/
def ofLetter? (command : Option CommandName) (c : Char) : Option Switch :=
  (known command).find? fun switch => switch.letter? = some c

end Switch

/-- What the words of a command line have said so far. -/
structure Draft where
  command : Option CommandName := none
  /-- The options since the name of the command, or since the beginning. -/
  given : List Switch := []
  config : Option Text := none
  verbose : Bool := false
  help : Bool := false
  file : Option Text := none
  defaultField : Option Text := none
  format : Option OutputFormat := none
  query : Option Text := none
deriving DecidableEq, Repr

namespace Draft

/-- Whether the next word may be a query. -/
def awaitsQuery (draft : Draft) : Bool :=
  draft.query.isNone && draft.command.any CommandName.takesQuery

/-- Gives an option, with its value if it has one.  Files have names. -/
def give? (draft : Draft) (switch : Switch) (value : Text) : Option Draft :=
  if draft.given.contains switch then none
  else
    let draft := { draft with given := switch :: draft.given }
    match switch with
    | .config => if value.isEmpty then none else some { draft with config := some value }
    | .verbose => some { draft with verbose := true }
    | .help => some { draft with help := true }
    | .file => if value.isEmpty then none else some { draft with file := some value }
    | .defaultField => some { draft with defaultField := some value }
    | .format => (OutputFormat.ofName? value).map fun format => { draft with format := some format }

/-- Takes a word that is no option: the name of the command or its query. -/
def place? (draft : Draft) (word : Text) : Option Draft :=
  match draft.command with
  | none =>
    if word = "help".toList then some { draft with help := true }
    else (CommandName.ofName? word).map fun command =>
      { draft with command := some command, given := [] }
  | some _ => if draft.awaitsQuery then some { draft with query := some word } else none

/-- The request that is made.  A query and a file have to be given where the command has one. -/
def complete? (draft : Draft) : Option Request := do
  let command ← match ← draft.command with
    | .parse => draft.query.map fun query => Command.parse query draft.defaultField draft.format
    | .check => draft.query.map fun query => Command.check query draft.defaultField
    | .toQuery => draft.file.map Command.toQuery
    | .fields => some Command.fields
  return { settingsFile := draft.config, verbose := draft.verbose, command }

end Draft

/-- What a word means. -/
inductive Word
  /-- All words behind it are no options. -/
  | stop
  /-- An option, and the value that stands in the same word. -/
  | switch (switch : Switch) (value : Option Text)
  /-- Options without values, the last of which may have one. -/
  | switches (flags : List Switch) (last : Switch) (value : Option Text)
  | other
  /-- Options that there are not. -/
  | unknown
deriving DecidableEq, Repr

/-- Reads letters behind one hyphen.  The first option that has a value takes the letters behind
it. -/
def readLetters (command : Option CommandName) : Text → Word
  | [] => .unknown
  | c :: rest =>
    match Switch.ofLetter? command c with
    | none => .unknown
    | some switch =>
      if switch.takesValue then
        .switches [] switch
          (if rest.isEmpty then none else some ((Text.dropBeginning? ['='] rest).getD rest))
      else if rest.isEmpty then .switches [] switch none
      else match readLetters command rest with
        | .switches flags last value => .switches (switch :: flags) last value
        | word => word

/-- Reads a word.  Where a query may stand, a word of unknown options is the query. -/
def readWord (draft : Draft) (word : Text) : Word :=
  match word with
  | '-' :: '-' :: [] => .stop
  | '-' :: '-' :: text =>
    let name := text.takeWhile (· ≠ '=')
    let value := if text.contains '=' then some (text.drop (name.length + 1)) else none
    match Switch.ofName? draft.command name with
    | some switch => .switch switch value
    | none => if draft.awaitsQuery then .other else .unknown
  | '-' :: c :: rest =>
    if draft.awaitsQuery && (c :: rest).any fun c => (Switch.ofLetter? draft.command c).isNone then
      .other
    else readLetters draft.command (c :: rest)
  | _ => .other

/-- Whether a word can be the value of the option in front of it. -/
def isValue (word : Text) : Bool := word.head? != some '-' || word == ['-']

/-- Reads the words of a command line.  Once help is asked for, nothing else counts. -/
def read? (draft : Draft) (words : List Text) : Option Draft :=
  match words with
  | [] => some draft
  | word :: rest =>
    let giveLast (draft : Draft) (switch : Switch) (value : Option Text) : Option (Draft × Bool) :=
      if switch.takesValue then
        match value, rest with
        | some value, _ => (draft.give? switch value).map fun draft => (draft, false)
        | none, next :: _ =>
          if isValue next then (draft.give? switch next).map fun draft => (draft, true) else none
        | none, [] => none
      else if value.isSome then none
      else (draft.give? switch []).map fun draft => (draft, false)
    let given : Option (Draft × Bool) :=
      match readWord draft word with
      | .stop => (rest.foldlM Draft.place? draft).map fun draft => (draft, false)
      | .switch switch value => giveLast draft switch value
      | .switches flags last value =>
        (flags.foldlM (fun (draft : Draft) flag => draft.give? flag []) draft).bind
          fun draft => giveLast draft last value
      | .other => (draft.place? word).map fun draft => (draft, false)
      | .unknown => none
    match given with
    | none => none
    | some (draft, tookNext) =>
      if draft.help || readWord draft word == .stop then some draft
      else read? draft (if tookNext then rest.drop 1 else rest)
termination_by words.length
decreasing_by
  split <;> simp only [List.length_cons, List.length_drop] <;> omega

end Arguments

/-- What the words of a command line ask for. -/
inductive Invocation
  | request (request : Request)
  /-- What the program can do. -/
  | help
  /-- Nothing that the program can do. -/
  | invalid
deriving DecidableEq, Repr

/-- What the words of a command line ask for. -/
def Invocation.ofWords (words : List Text) : Invocation :=
  match Arguments.read? {} words with
  | none => .invalid
  | some draft =>
    if draft.help then .help
    else match draft.complete? with
      | none => .invalid
      | some asked => .request asked

end AlarmQuery
