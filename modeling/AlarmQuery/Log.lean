import AlarmQuery.Text.Basic

/-!
# Log records

What a command reports besides its result.  Records come from the command itself or from the
library that it calls, and a user chooses from which and how much is reported.
-/

namespace AlarmQuery

/-- How important a record is, the most important first. -/
inductive LogLevel
  | warn
  | info
  | debug
deriving DecidableEq, Repr

namespace LogLevel

/-- The name of a level. -/
def name : LogLevel → Text
  | .warn => "WARN".toList
  | .info => "INFO".toList
  | .debug => "DEBUG".toList

/-- How far down the list of levels a level is. -/
def rank : LogLevel → Nat
  | .warn => 0
  | .info => 1
  | .debug => 2

end LogLevel

/-- Who made a record. -/
inductive LogOrigin
  | command
  | library
deriving DecidableEq, Repr

/-- One report. -/
structure LogRecord where
  level : LogLevel
  origin : LogOrigin
  message : Text
deriving DecidableEq, Repr

/-- A record as a line. -/
def LogRecord.text (record : LogRecord) : Text := record.level.name ++ ' ' :: record.message

/-- Which records a user wants to see. -/
inductive LogFilter
  /-- Warnings of the command alone. -/
  | quiet
  /-- All records but those for debugging. -/
  | normal
  /-- All records. -/
  | verbose
deriving DecidableEq, Repr

namespace LogFilter

/-- Whether a record is shown. -/
def accepts (filter : LogFilter) (record : LogRecord) : Bool :=
  match filter with
  | .quiet => record.origin = .command ∧ record.level = .warn
  | .normal => record.level.rank ≤ LogLevel.info.rank
  | .verbose => true

/-- The records that are shown, in their order. -/
def shown (filter : LogFilter) (records : List LogRecord) : List LogRecord :=
  records.filter filter.accepts

end LogFilter

end AlarmQuery
