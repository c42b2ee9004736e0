import AlarmQuery.Builder
import AlarmQuery.Clause.Basic
import AlarmQuery.Clause.Draft
import AlarmQuery.Clause.Edit
import AlarmQuery.Clause.Json
import AlarmQuery.Clause.OfQuery
import AlarmQuery.Clause.ToQuery
import AlarmQuery.Clause.Yaml
import AlarmQuery.Command.Arguments
import AlarmQuery.Command.Basic
import AlarmQuery.Command.Run
import AlarmQuery.Decimal.Boost
import AlarmQuery.Decimal.Floating
import AlarmQuery.Decimal.Shortest
import AlarmQuery.Error
import AlarmQuery.Field
import AlarmQuery.Json.Basic
import AlarmQuery.Json.Read
import AlarmQuery.Log
import AlarmQuery.Main
import AlarmQuery.Query.Basic
import AlarmQuery.Query.Operand
import AlarmQuery.Query.Parse
import AlarmQuery.Query.Reader
import AlarmQuery.Query.Render
import AlarmQuery.Settings
import AlarmQuery.Table
import AlarmQuery.Text.Basic
import AlarmQuery.Text.Blank
import AlarmQuery.Text.Escape
import AlarmQuery.Text.Marks
import AlarmQuery.Text.Pattern
import AlarmQuery.Text.Quoted
import AlarmQuery.Text.Width
import AlarmQuery.Time.Absolute
import AlarmQuery.Time.Amount
import AlarmQuery.Time.Calendar
import AlarmQuery.Time.Input
import AlarmQuery.Time.Instant
import AlarmQuery.Token.Basic
import AlarmQuery.Token.Cursor
import AlarmQuery.Token.Fault
import AlarmQuery.Token.Read
import AlarmQuery.Token.Scan
import AlarmQuery.Toml.Basic
import AlarmQuery.Toml.Read
import AlarmQuery.Toml.ReadString
import AlarmQuery.Yaml.Basic
import AlarmQuery.Yaml.Read
import AlarmQuery.Yaml.ReadScalar
import AlarmQuery.Yaml.Scalar
import AlarmQuery.Yaml.Source
import AlarmQuery.Proofs.Builder.Rewrite
import AlarmQuery.Proofs.Builder.Run
import AlarmQuery.Proofs.Clause.Condition
import AlarmQuery.Proofs.Clause.Exported
import AlarmQuery.Proofs.Clause.Faithful
import AlarmQuery.Proofs.Clause.Grouping
import AlarmQuery.Proofs.Clause.Leaf
import AlarmQuery.Proofs.Clause.ListTokens
import AlarmQuery.Proofs.Clause.Meaning
import AlarmQuery.Proofs.Clause.Provenance
import AlarmQuery.Proofs.Clause.RoundTrip
import AlarmQuery.Proofs.Clause.Same
import AlarmQuery.Proofs.Clause.Shape
import AlarmQuery.Proofs.Clause.Sorting
import AlarmQuery.Proofs.Clause.Tokens
import AlarmQuery.Proofs.Clause.Tree
import AlarmQuery.Proofs.Clause.WrittenAlike
import AlarmQuery.Proofs.Command.Agreement
import AlarmQuery.Proofs.Json.RoundTrip
import AlarmQuery.Proofs.Query.Accepted
import AlarmQuery.Proofs.Query.DefaultField
import AlarmQuery.Proofs.Query.Derivation
import AlarmQuery.Proofs.Query.Exact
import AlarmQuery.Proofs.Query.Faults
import AlarmQuery.Proofs.Query.Grammar
import AlarmQuery.Proofs.Query.Leaves
import AlarmQuery.Proofs.Query.Meaning
import AlarmQuery.Proofs.Query.Nesting
import AlarmQuery.Proofs.Query.Occurs
import AlarmQuery.Proofs.Query.Parts
import AlarmQuery.Proofs.Query.Printed
import AlarmQuery.Proofs.Query.Regular
import AlarmQuery.Proofs.Query.Scope
import AlarmQuery.Proofs.Query.Spelling
import AlarmQuery.Proofs.Text.Extras
import AlarmQuery.Proofs.Text.Letter
import AlarmQuery.Proofs.Text.Words
import AlarmQuery.Proofs.Time.Absolute
import AlarmQuery.Proofs.Time.Calendar
import AlarmQuery.Proofs.Time.Earlier
import AlarmQuery.Proofs.Time.Items
import AlarmQuery.Proofs.Time.Order
import AlarmQuery.Proofs.Time.Range
import AlarmQuery.Proofs.Time.ReadBack
import AlarmQuery.Proofs.Time.Relative
import AlarmQuery.Proofs.Time.Written
import AlarmQuery.Proofs.Token.Escaped
import AlarmQuery.Proofs.Token.Faults
import AlarmQuery.Proofs.Token.Locality
import AlarmQuery.Proofs.Token.Parts
import AlarmQuery.Proofs.Token.Scans
import AlarmQuery.Proofs.Token.Source
import AlarmQuery.Proofs.Token.Spaced
import AlarmQuery.Proofs.Token.Tiling
import AlarmQuery.Proofs.Token.Word
import AlarmQuery.Proofs.Token.Written
