import AdocProse.Annotation
import AdocProse.Check.Checker
import AdocProse.Check.Error
import AdocProse.Check.Finding
import AdocProse.Check.Query
import AdocProse.Check.Response
import AdocProse.Check.Server
import AdocProse.CommandLine.Arguments
import AdocProse.CommandLine.Footprint
import AdocProse.CommandLine.Report
import AdocProse.CommandLine.Run
import AdocProse.Configuration.Decoding
import AdocProse.Configuration.Lookup
import AdocProse.Json.Fault
import AdocProse.Json.Numeral
import AdocProse.Json.Printer
import AdocProse.Json.Reader
import AdocProse.Json.StringLit
import AdocProse.Json.Token
import AdocProse.Json.Value
import AdocProse.Main
import AdocProse.Number.Binary64
import AdocProse.Number.Decimal
import AdocProse.Number.Shortest
import AdocProse.Parser.Artifact
import AdocProse.Parser.Command
import AdocProse.Parser.Error
import AdocProse.Parser.Java
import AdocProse.Parser.Settings
import AdocProse.Proofreading
import AdocProse.System.FileSystem
import AdocProse.System.Path
import AdocProse.System.Session
import AdocProse.Text.Pieces
import AdocProse.Text.Quoted
import AdocProse.Text.Shown
import AdocProse.Text.Utf8
import AdocProse.Toml.Document
import AdocProse.Toml.Scalar
import AdocProse.Toml.Table
import AdocProse.Toml.Text
import AdocProse.Tree.Kind
import AdocProse.Tree.Leaves
import AdocProse.Tree.Node
import AdocProse.Tree.Offset
import AdocProse.Tree.Reader
import AdocProse.Web.Exchange
import AdocProse.Web.Form
import AdocProse.Web.Url
import AdocProse.Proofs.Json.StringLit
import AdocProse.Proofs.Json.Numeral
import AdocProse.Proofs.Json.Printed
import AdocProse.Tree.Printer
import AdocProse.Proofs.Tree.Nodes
import AdocProse.Proofs.Tree.RoundTrip
import AdocProse.Proofs.Annotation.Nesting
import AdocProse.Proofs.Check.RuleFields
import AdocProse.Proofs.Tree.Containment
import AdocProse.Proofs.Annotation.Traversal
import AdocProse.Proofs.Check.Filtering
import AdocProse.Proofs.Text.Quoted
import AdocProse.Proofs.Tree.Outline
import AdocProse.Proofs.Json.Grammar
import AdocProse.Proofs.Json.Lexing
import AdocProse.Proofs.Json.Parsing
import AdocProse.Proofs.Json.Written
import AdocProse.Proofs.Annotation.Document
import AdocProse.Proofs.System.Changes
import AdocProse.Proofs.Parser.Provision
import AdocProse.Proofs.Parser.Interleaving
import AdocProse.Proofs.System.Path
import AdocProse.Proofs.System.Ancestors
import AdocProse.Proofs.Json.Members
import AdocProse.Proofs.Tree.Offset
import AdocProse.Proofs.Tree.Description
import AdocProse.Proofs.Tree.Presentation
import AdocProse.Proofs.Configuration.Precedence
import AdocProse.Proofs.Parser.Stages
import AdocProse.Proofs.Check.Response
import AdocProse.Proofs.Web.Form
import AdocProse.Proofs.Check.Reporting
import AdocProse.Proofs.Check.DisabledRules
import AdocProse.Proofs.System.Names
import AdocProse.Proofs.Configuration.Discovery
import AdocProse.Proofs.Configuration.Ignoring
import AdocProse.Proofs.Check.Posting
import AdocProse.Proofs.CommandLine.Arguments
import AdocProse.Proofs.CommandLine.Printing
import AdocProse.Proofs.Tree.FirstFault
import AdocProse.Proofs.Tree.Defects
import AdocProse.Proofs.Parser.Captures
import AdocProse.Proofs.Tree.Decimals
import AdocProse.Proofs.Tree.Fractions
import AdocProse.Proofs.Check.Decoding
import AdocProse.Proofs.Parser.Java
import AdocProse.Proofs.Parser.Cache
