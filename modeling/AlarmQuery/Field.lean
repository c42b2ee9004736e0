import AlarmQuery.Text.Basic

/-!
# Fields of the alarm log

The fields that an entry of the alarm log has, in the order in which they are listed to users.
-/

namespace AlarmQuery

/-- A field of an entry of the alarm log. -/
inductive Field
  | config
  | pv
  | severity
  | message
  | currentSeverity
  | currentMessage
  | user
  | host
  | command
  | messageTime
  | time
deriving DecidableEq, Repr

namespace Field

/-- All the fields. -/
def all : List Field :=
  [.config, .pv, .severity, .message, .currentSeverity, .currentMessage, .user, .host, .command,
    .messageTime, .time]

/-- Every field is listed. -/
theorem mem_all (field : Field) : field ∈ all := by cases field <;> decide

/-- The name of a field in a query. -/
def name : Field → Text
  | .config => "config".toList
  | .pv => "pv".toList
  | .severity => "severity".toList
  | .message => "message".toList
  | .currentSeverity => "current_severity".toList
  | .currentMessage => "current_message".toList
  | .user => "user".toList
  | .host => "host".toList
  | .command => "command".toList
  | .messageTime => "message_time".toList
  | .time => "time".toList

/-- The field with a given name. -/
def ofName? (text : Text) : Option Field := all.find? fun field => field.name = text

/-- Whether the field holds a time. -/
def isTime : Field → Bool
  | .messageTime => true
  | .time => true
  | _ => false

/-- The place of a field in the list of all fields. -/
def index (field : Field) : Nat := all.idxOf field

/-- The names of all the fields. -/
def names : List Text := all.map name

/-- The field that a query is about where it names none. -/
def standard : Text := Field.pv.name

/-- The field that a query is about where it names none and nothing is known of its fields. -/
def generic : Text := "defaultField".toList

end Field

end AlarmQuery
