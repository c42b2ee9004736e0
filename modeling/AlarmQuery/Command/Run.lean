import AlarmQuery.Clause.Json
import AlarmQuery.Clause.OfQuery
import AlarmQuery.Clause.ToQuery
import AlarmQuery.Clause.Yaml
import AlarmQuery.Command.Arguments
import AlarmQuery.Table

/-!
# What commands do

A request is carried out on the contents of files, which are looked up by their names.  Settings
are read before the command is carried out, and a command that fails prints nothing.
-/

namespace AlarmQuery

/-! ## Log records -/

/-- What is reported about a query that was read. -/
def Clause.parseLog (query : Text) (parsed : Except QueryError (List Clause)) : List LogRecord :=
  if query.all isBlank then []
  else match parsed with
    | .ok clauses =>
      [⟨.debug, .library, "Parsed ".toList ++ Text.ofNat clauses.length ++
        " clauses from query: ".toList ++ query⟩]
    | .error (.malformed _) => []
    | .error error =>
      [⟨.warn, .library, "Query cannot be edited as clauses: ".toList ++ query ++
        ':' :: ' ' :: error.display⟩]

/-- What is reported about a query that was built. -/
def Clause.buildLog (clauses : List Clause) (built : Except QueryError Text) : List LogRecord :=
  match clauses, built with
  | _ :: _, .ok query =>
    [⟨.debug, .library, "Built query from ".toList ++ Text.ofNat clauses.length ++
      " clauses on ".toList ++ Text.ofNat (Clause.fields clauses).length ++
      " fields: ".toList ++ query⟩]
  | _, _ => []

/-- The warnings about clauses of a query on fields that are not known. -/
def Settings.queryWarnings (settings : Settings) (clauses : List Clause) : List LogRecord :=
  (clauses.filter fun clause => !settings.knows clause.field).map fun clause =>
    ⟨.warn, .command, "Unknown field \x60".toList ++ clause.field ++ "\x60 in query".toList⟩

/-- The warnings about clauses of a file on fields that are not known.  A clause that names no
field is an error of its own. -/
def Settings.clauseWarnings (settings : Settings) (clauses : List Clause) : List LogRecord :=
  (clauses.filter fun clause => !clause.field.isEmpty && !settings.knows clause.field).map
    fun clause => ⟨.warn, .command, "Unknown field in clause ".toList ++ clause.text⟩

/-! ## Printing -/

/-- A clause as a row of a table. -/
def Clause.row (clause : Clause) : List Text :=
  [clause.negation.name, clause.field, clause.term, clause.upTo,
    if clause.literal then "true".toList else "false".toList]

/-- Clauses in a format. -/
def OutputFormat.clausesText (format : OutputFormat) (clauses : List Clause) : Text :=
  match format with
  | .table =>
    Table.text (["Negation".toList, "Field".toList, "Term".toList, "To".toList, "Literal".toList] ::
      clauses.map Clause.row)
  | .json => (Clause.listToJson clauses).pretty ++ ['\n']
  | .yaml => Clause.listToYaml clauses

/-- What a field holds, as far as it is known. -/
def Field.typeName (name : Text) : Text :=
  match Field.ofName? name with
  | none => "custom".toList
  | some field => if field.isTime then "time".toList else "text".toList

/-- The known fields as a table.  A star marks the default field. -/
def Settings.fieldsText (settings : Settings) : Text :=
  Table.text (["Field".toList, "Type".toList, "Default".toList] ::
    settings.fields.map fun field =>
      [field, Field.typeName field, if field = settings.defaultField then ['*'] else []])

/-! ## Files -/

/-- The last part of a path that names something. -/
def fileName (path : Text) : Text :=
  ((path.splitOn '/').filter fun part => !part.isEmpty && part != ['.']).getLast?.getD []

/-- The format of the clauses in a file.  A name that ends in `.json`, in letters of either case,
says JSON if something stands in front of that. -/
def ClauseFormat.ofPath (path : Text) : ClauseFormat :=
  let name := fileName path
  let ending := (name.drop (name.length - 5)).map Char.toLower
  if 5 < name.length ∧ ending = ".json".toList then .json else .yaml

/-- The clauses of a text in a format. -/
def ClauseFormat.read? (format : ClauseFormat) (text : Text) : Option (List Clause) :=
  match format with
  | .json => (Clause.readJson text).toOption
  | .yaml => Clause.readYaml? text

/-! ## Commands -/

namespace Command

/-- Prints a query as clauses. -/
def runParse (settings : Settings) (query : Text) (field : Option Text)
    (format : Option OutputFormat) : Outcome :=
  let parsed := Clause.parseList query (field.getD settings.defaultField)
  let log := Clause.parseLog query parsed
  match parsed with
  | .error error => { log, failure := some (.query error) }
  | .ok clauses =>
    { output := (format.getD settings.output).clausesText clauses
      log := log ++ settings.queryWarnings clauses }

/-- Tells whether a text is a query, and how many clauses it has, if it has any. -/
def runCheck (settings : Settings) (query : Text) (field : Option Text) : Outcome :=
  let field := field.getD settings.defaultField
  match Query.validate query field with
  | .error error => { failure := some (.query error) }
  | .ok _ =>
    let parsed := Clause.parseList query field
    let output := match parsed with
      | .ok clauses => "OK: ".toList ++ Text.ofNat clauses.length ++ " clauses\n".toList
      | .error error => "OK: not editable as clauses (".toList ++ error.display ++ [')', '\n']
    { output, log := Clause.parseLog query parsed }

/-- Prints the clauses of a file as a query. -/
def runToQuery (settings : Settings) (contents : Text → Option Text) (file : Text) : Outcome :=
  let format := ClauseFormat.ofPath file
  match contents file with
  | none => { failure := some (.unreadableClauses file) }
  | some text =>
    match format.read? text with
    | none => { failure := some (.malformedClauses format file) }
    | some clauses =>
      let built := Clause.toQuery clauses
      let log :=
        ⟨.debug, .command, "Loaded ".toList ++ Text.ofNat clauses.length ++
          " clauses from ".toList ++ file⟩ ::
        settings.clauseWarnings clauses ++ Clause.buildLog clauses built
      match built with
      | .error error => { log, failure := some (.query error) }
      | .ok query => { output := query ++ ['\n'], log }

/-- Prints the known fields. -/
def runFields (settings : Settings) : Outcome := { output := settings.fieldsText }

/-- Carries out a command. -/
def run (settings : Settings) (contents : Text → Option Text) : Command → Outcome
  | .parse query field format => runParse settings query field format
  | .check query field => runCheck settings query field
  | .toQuery file => runToQuery settings contents file
  | .fields => runFields settings

end Command

/-! ## Requests -/

/-- Reads the settings in a file. -/
def Settings.load (contents : Text → Option Text) (file : Text) : Except Failure Settings :=
  match contents file with
  | none => .error (.unreadableSettings file)
  | some text =>
    match Settings.ofText? text with
    | none => .error (.malformedSettings file)
    | some settings => .ok settings

/-- The settings file of a request: the one that is named, or else the usual one if there is
one. -/
def Request.settingsPath? (request : Request) (contents : Text → Option Text)
    (usual : Option Text) : Option Text :=
  request.settingsFile.or (usual.filter fun file => (contents file).isSome)

/-- Carries out a request.  The settings file that is usual need not exist. -/
def Request.run (request : Request) (contents : Text → Option Text) (usual : Option Text) :
    Outcome :=
  match request.settingsPath? contents usual with
  | none =>
    (request.command.run {} contents).after
      [⟨.debug, .command, "No config file found, using defaults".toList⟩]
  | some file =>
    match Settings.load contents file with
    | .error failure => { failure := some failure }
    | .ok settings => request.command.run settings contents

/-- Which records a request shows.  A user who wants only warnings says so outside it. -/
def Request.logFilter (request : Request) (quiet : Bool) : LogFilter :=
  if quiet then .quiet else if request.verbose then .verbose else .normal

/-- How the program is called. -/
def Invocation.helpText : Text :=
  ("Usage: sclause [OPTIONS] <COMMAND>\n\nCommands:\n" ++
    "  to-query --file <FILE>\n" ++
    "  parse [--default-field <FIELD>] [--format <FORMAT>] <QUERY>\n" ++
    "  check [--default-field <FIELD>] <QUERY>\n" ++
    "  fields\n\nOptions:\n  --config <FILE>\n  -v, --verbose\n  -h, --help\n").toList

/-- Carries out what a command line asks for, and leaves the log records that are shown. -/
def Invocation.run (invocation : Invocation) (contents : Text → Option Text)
    (usual : Option Text) (quiet : Bool) : Outcome :=
  match invocation with
  | .invalid => { failure := some .usage }
  | .help => { output := helpText }
  | .request asked =>
    let outcome := asked.run contents usual
    { outcome with log := (asked.logFilter quiet).shown outcome.log }

end AlarmQuery
