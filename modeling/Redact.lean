import Redact.Command.Report
import Redact.Command.Request
import Redact.Command.Screen
import Redact.Command.Words
import Redact.Edit
import Redact.File.Kind
import Redact.File.Path
import Redact.File.Read
import Redact.File.Tree
import Redact.Main
import Redact.Number.Binary64
import Redact.Number.Decimal
import Redact.Number.Notation
import Redact.Number.Shortest
import Redact.Plan
import Redact.Proofs.Command.Files
import Redact.Proofs.Command.PassThrough
import Redact.Proofs.Command.Report
import Redact.Proofs.File.Detection
import Redact.Proofs.File.RoundTrip
import Redact.Proofs.Plan
import Redact.Proofs.Refusal
import Redact.Proofs.Secret.Allowed
import Redact.Proofs.Secret.Coverage
import Redact.Proofs.Secret.Hits
import Redact.Proofs.Secret.Literal
import Redact.Proofs.Secret.Name
import Redact.Proofs.Secret.Order
import Redact.Proofs.Secret.Placement
import Redact.Proofs.Secret.Rewriting
import Redact.Proofs.Secret.Strictness
import Redact.Proofs.Secret.Strings
import Redact.Proofs.Secret.Token
import Redact.Proofs.Separate
import Redact.Proofs.Session.Counts
import Redact.Proofs.Session.Dependable
import Redact.Proofs.Session.Engine
import Redact.Proofs.Session.Event
import Redact.Proofs.Session.Failure
import Redact.Proofs.Session.History
import Redact.Proofs.Session.Redaction
import Redact.Proofs.Session.Registry
import Redact.Proofs.Settings.Listing
import Redact.Proofs.Settings.Merge
import Redact.Proofs.Settings.Names
import Redact.Proofs.Settings.Normal
import Redact.Proofs.Settings.Read
import Redact.Proofs.Settings.Spelling
import Redact.Proofs.Settings.Tolerance
import Redact.Proofs.Sorting
import Redact.Proofs.Span
import Redact.Proofs.Splice
import Redact.Proofs.Sweep
import Redact.Proofs.Text.Encoding
import Redact.Proofs.Text.Lower
import Redact.Proofs.Text.Raw
import Redact.Proofs.Text.Search
import Redact.Proofs.Text.Trim
import Redact.Proofs.Text.Utf8
import Redact.Proofs.Text.WellFormed
import Redact.Proofs.Tree.Enumeration
import Redact.Proofs.Tree.Nesting
import Redact.Proofs.Tree.Preorder
import Redact.Proofs.Tree.Walk
import Redact.Proofs.Value.Show
import Redact.Secret.Hit
import Redact.Secret.Name
import Redact.Secret.Search
import Redact.Secret.Token
import Redact.Session.Engine
import Redact.Session.Fault
import Redact.Session.Parser
import Redact.Session.Registry
import Redact.Session.Sanitizer
import Redact.Session.Standard
import Redact.Settings.Basic
import Redact.Settings.Load
import Redact.Settings.Merge
import Redact.Settings.Read
import Redact.Settings.Section
import Redact.Settings.Write
import Redact.Splice
import Redact.Syntax.Cursor
import Redact.Syntax.Digits
import Redact.Syntax.Ecma.Expression
import Redact.Syntax.Ecma.Outline
import Redact.Syntax.Ecma.Part
import Redact.Syntax.Ecma.Statement
import Redact.Syntax.Ecma.Token
import Redact.Syntax.Ecma.Type
import Redact.Syntax.Node
import Redact.Syntax.Parse
import Redact.Syntax.Python.Literal
import Redact.Syntax.Python.Outline
import Redact.Syntax.Shape
import Redact.Text.Blank
import Redact.Text.CaseTable
import Redact.Text.Encoding
import Redact.Text.Lower
import Redact.Text.Numeral
import Redact.Text.Printable
import Redact.Text.Quoted
import Redact.Text.Raw
import Redact.Text.Search
import Redact.Text.TextSet
import Redact.Text.Utf8
import Redact.Text.Width
import Redact.Toml.Document
import Redact.Toml.Scalar
import Redact.Toml.Scan
import Redact.Value.Basic
import Redact.Value.Calendar
import Redact.Value.Show
import Redact.Value.Whole
import Redact.Yaml.Atom
import Redact.Yaml.Document
import Redact.Yaml.Node
import Redact.Yaml.Resolve
import Redact.Yaml.Scalar
import Redact.Yaml.Scan
import Redact.Yaml.Token
import Redact.Yaml.Tokens
import Redact.Yaml.Word
