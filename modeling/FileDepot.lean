import FileDepot.Command.Arguments
import FileDepot.Command.Basic
import FileDepot.Command.Desk
import FileDepot.Command.Outcome
import FileDepot.Failure
import FileDepot.Files.Tree
import FileDepot.Glob.Basic
import FileDepot.Glob.Expression
import FileDepot.Json.Reader
import FileDepot.Logging.Board
import FileDepot.Logging.Configuration
import FileDepot.Logging.Delivery
import FileDepot.Logging.Draft
import FileDepot.Logging.Format
import FileDepot.Logging.Handler
import FileDepot.Logging.Level
import FileDepot.Logging.LogFile
import FileDepot.Logging.Manager
import FileDepot.Logging.Outside
import FileDepot.Logging.World
import FileDepot.Main
import FileDepot.Metadata.Pairs
import FileDepot.Metadata.Writer
import FileDepot.Number.Binary64
import FileDepot.Number.Decimal
import FileDepot.Number.Shortest
import FileDepot.Number.Word
import FileDepot.Number.Written
import FileDepot.Query.Basic
import FileDepot.Query.Building
import FileDepot.Query.Criterion
import FileDepot.Query.Native
import FileDepot.Regex.Basic
import FileDepot.Regex.Error
import FileDepot.Regex.Escape
import FileDepot.Regex.Marks
import FileDepot.Regex.Reader
import FileDepot.Session
import FileDepot.Settings.Basic
import FileDepot.Settings.Environment
import FileDepot.Settings.Field
import FileDepot.Settings.File
import FileDepot.Settings.Holder
import FileDepot.Settings.Packaged
import FileDepot.Store.Bucket
import FileDepot.Store.Connection
import FileDepot.Store.Matching
import FileDepot.Store.Resource
import FileDepot.Store.Sorting
import FileDepot.Store.Template
import FileDepot.Text.Blank
import FileDepot.Text.Case
import FileDepot.Text.Decimal
import FileDepot.Text.Digits
import FileDepot.Text.Encoding
import FileDepot.Text.Pieces
import FileDepot.Text.Printable
import FileDepot.Text.Quoted
import FileDepot.Text.WordChar
import FileDepot.Time.Calendar
import FileDepot.Value.Access
import FileDepot.Value.Basic
import FileDepot.Value.Compare
import FileDepot.Value.Identifier
import FileDepot.Value.Path
import FileDepot.Value.Pattern
import FileDepot.Value.Show
import FileDepot.Value.Sorting
import FileDepot.Yaml.Cursor
import FileDepot.Yaml.Kind
import FileDepot.Yaml.Meaning
import FileDepot.Yaml.Node
import FileDepot.Yaml.Quantity
import FileDepot.Yaml.Scalar
import FileDepot.Yaml.Token
import FileDepot.Yaml.Token.Lexer
import FileDepot.Proofs.Regex.Spans
import FileDepot.Proofs.Regex.Words
import FileDepot.Proofs.Regex.ClassReading
import FileDepot.Proofs.Regex.Ranges
import FileDepot.Proofs.Glob.ClassBody
import FileDepot.Proofs.Glob.Compiled
import FileDepot.Proofs.Glob.PathMatches
import FileDepot.Proofs.Command.Telling
import FileDepot.Proofs.Command.Patterns
import FileDepot.Proofs.Metadata.Writing
import FileDepot.Proofs.Value.Parts
import FileDepot.Proofs.Metadata.Normal
import FileDepot.Proofs.Metadata.Carriers
import FileDepot.Proofs.Value.Stored
import FileDepot.Proofs.Query.Stored
import FileDepot.Proofs.Store.Matching
import FileDepot.Proofs.Query.Meaning
import FileDepot.Proofs.Query.Conjunction
import FileDepot.Proofs.Store.Conjunction
import FileDepot.Proofs.Store.Lookups
import FileDepot.Proofs.Value.Identifier
import FileDepot.Proofs.Store.History
import FileDepot.Proofs.Store.Identifiers
import FileDepot.Proofs.Store.Storing
import FileDepot.Proofs.Files.Writing
import FileDepot.Proofs.Store.Reading
import FileDepot.Proofs.Command.Lines
import FileDepot.Proofs.Command.Reading
import FileDepot.Proofs.Value.Numbers
import FileDepot.Proofs.Query.Sorting
import FileDepot.Proofs.Store.Ordering
import FileDepot.Proofs.Store.Uses
import FileDepot.Proofs.Command.Names
import FileDepot.Proofs.Store.Equality
import FileDepot.Proofs.Settings.Layers
import FileDepot.Proofs.Logging.SetUp
import FileDepot.Proofs.Session.Opening
import FileDepot.Proofs.Command.Outcomes
import FileDepot.Proofs.Query.Settled
import FileDepot.Proofs.Glob.Levels
import FileDepot.Proofs.Glob.Separators
import FileDepot.Proofs.Glob.Refusals
import FileDepot.Proofs.Glob.Below
import FileDepot.Proofs.Glob.ExactNames
import FileDepot.Proofs.Query.Building
import FileDepot.Proofs.Query.Expressions
import FileDepot.Proofs.Query.Additions
import FileDepot.Proofs.Query.Calls
import FileDepot.Proofs.Value.Within
import FileDepot.Proofs.Query.Pieces
import FileDepot.Proofs.Metadata.NullEntries
import FileDepot.Proofs.Metadata.Refusals
import FileDepot.Proofs.Metadata.Privacy
import FileDepot.Proofs.Store.Openings
import FileDepot.Proofs.Settings.Faults
import FileDepot.Proofs.Metadata.Pairs
import FileDepot.Proofs.Glob.Members
import FileDepot.Proofs.Settings.Sections
import FileDepot.Proofs.Store.OwnBucket
import FileDepot.Proofs.Session.Buckets
import FileDepot.Proofs.Logging.Guarded
import FileDepot.Proofs.Logging.InUse
import FileDepot.Proofs.Logging.Parts
import FileDepot.Proofs.Logging.Applying
import FileDepot.Proofs.Settings.LogSection
import FileDepot.Proofs.Logging.Mappings
