import AlarmQuery.Error
import AlarmQuery.Log
import AlarmQuery.Settings

/-!
# Commands

What a user can ask the program for, and what it answers: a text, log records, and possibly a
failure, whose kind is the exit code.
-/

namespace AlarmQuery

/-- What the program can do. -/
inductive Command
  /-- Prints a query as clauses. -/
  | parse (query : Text) (field : Option Text) (format : Option OutputFormat)
  /-- Tells whether a text is a query. -/
  | check (query : Text) (field : Option Text)
  /-- Prints the clauses of a file as a query. -/
  | toQuery (file : Text)
  /-- Prints the known fields. -/
  | fields
deriving DecidableEq, Repr

/-- A command and what holds for any command. -/
structure Request where
  settingsFile : Option Text := none
  verbose : Bool := false
  command : Command
deriving DecidableEq, Repr

/-- The formats in which clauses are stored. -/
inductive ClauseFormat
  | json
  | yaml
deriving DecidableEq, Repr

/-- The name of a format. -/
def ClauseFormat.name : ClauseFormat → Text
  | .json => "JSON".toList
  | .yaml => "YAML".toList

/-- Why a command failed. -/
inductive Failure
  /-- The words of the command line are no request. -/
  | usage
  | unreadableSettings (file : Text)
  | malformedSettings (file : Text)
  | unreadableClauses (file : Text)
  | malformedClauses (format : ClauseFormat) (file : Text)
  | query (error : QueryError)

namespace Failure

/-- The exit code that tells what kind of failure it is. -/
def exitCode : Failure → Nat
  | .usage => 2
  | .unreadableSettings _ => 1
  | .malformedSettings _ => 1
  | .unreadableClauses _ => 1
  | .malformedClauses .. => 1
  | .query (.malformed _) => 2
  | .query (.unsupported _) => 3
  | .query (.unnamedField ..) => 4

/-- What a user can do about an error. -/
def advice : QueryError → Text
  | .malformed _ => []
  | .unsupported _ =>
    ("\n\nThe query is valid but can not be represented as a list of clauses.\n" ++
      "Use \x60sclause check\x60 to validate it without conversion.").toList
  | .unnamedField .. =>
    ("\n\nEvery clause needs a non-empty \x60field\x60. " ++
      "Run \x60sclause fields\x60 to list known fields.").toList

/-- What went wrong with a file. -/
def heading : Failure → Text
  | .usage => "usage".toList
  | .unreadableSettings _ => "Failed to read config file".toList
  | .malformedSettings _ => "Failed to parse config file".toList
  | .unreadableClauses _ => "Failed to read clause file".toList
  | .malformedClauses format _ => "Failed to parse ".toList ++ format.name ++ " clause file".toList
  | .query error => error.display ++ advice error

/-- The words in which a failure is reported: what went wrong, and its cause or its place. -/
def message (failure : Failure) : Text :=
  match failure with
  | .usage => failure.heading
  | .unreadableSettings file => failure.heading ++ ':' :: ' ' :: file
  | .malformedSettings file => failure.heading ++ ':' :: ' ' :: file
  | .unreadableClauses file => failure.heading ++ ':' :: ' ' :: file
  | .malformedClauses _ file => failure.heading ++ ':' :: ' ' :: file
  | .query error => failure.heading ++ ':' :: ' ' :: error.display

end Failure

/-- What a command comes to. -/
structure Outcome where
  output : Text := []
  log : List LogRecord := []
  failure : Option Failure := none

namespace Outcome

/-- The exit code of the program. -/
def exitCode (outcome : Outcome) : Nat :=
  match outcome.failure with
  | none => 0
  | some failure => failure.exitCode

/-- The outcome with records in front of its own. -/
def after (log : List LogRecord) (outcome : Outcome) : Outcome :=
  { outcome with log := log ++ outcome.log }

end Outcome

end AlarmQuery
