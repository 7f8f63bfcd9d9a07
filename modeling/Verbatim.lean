import Verbatim.Text.Offset
import Verbatim.Text.Blank
import Verbatim.Peg.Expr
import Verbatim.Peg.Parse
import Verbatim.Peg.Attempts
import Verbatim.Toml.Rule
import Verbatim.Toml.Grammar
import Verbatim.Span
import Verbatim.Text.Excerpt
import Verbatim.Toml.Parse
import Verbatim.Charset
import Verbatim.Digest.Sha256
import Verbatim.Document.Basic
import Verbatim.Document.Print
import Verbatim.Document.Identity
import Verbatim.Document.Edit
import Verbatim.Document.Cursor
import Verbatim.Document.Build
import Verbatim.Reader
import Verbatim.Toml.Outline
import Verbatim.Text.LineDiff
import Verbatim.Number.Shortest
import Verbatim.Yaml.Plain
import Verbatim.Dump.Data
import Verbatim.Dump.Json
import Verbatim.Dump.Format
import Verbatim.Report
import Verbatim.Yaml.Token
import Verbatim.Yaml.Scalar
import Verbatim.Yaml.Scanner
import Verbatim.Yaml.Event
import Verbatim.Yaml.Document
import Verbatim.Options.Fault
import Verbatim.Options.Read
import Verbatim.Command.Arguments
import Verbatim.Command.Help
import Verbatim.Command.Run
import Verbatim.Files.Directory
import Verbatim.Main
import Verbatim.Proofs.Peg.Match
import Verbatim.Proofs.Peg.Spread
import Verbatim.Proofs.Peg.Border
import Verbatim.Proofs.Peg.Node
import Verbatim.Proofs.Peg.Move
import Verbatim.Proofs.Peg.Append
import Verbatim.Proofs.Peg.Keep
import Verbatim.Proofs.Text.Filler
import Verbatim.Proofs.Toml.Production
import Verbatim.Proofs.Toml.Trivia
import Verbatim.Proofs.Toml.Shape
import Verbatim.Proofs.Toml.Layout
import Verbatim.Proofs.Document.Cursor
import Verbatim.Proofs.Document.Spacing
import Verbatim.Proofs.Document.Build
import Verbatim.Proofs.Charset
import Verbatim.Proofs.Charset.Canonical
import Verbatim.Proofs.Reader.Accepted
import Verbatim.Proofs.Reader.RoundTrip
import Verbatim.Proofs.Reader.Conversion
import Verbatim.Proofs.Reader.Sources
import Verbatim.Proofs.Toml.Scalar
import Verbatim.Proofs.Toml.Strings
import Verbatim.Proofs.Toml.Keys
import Verbatim.Proofs.Toml.Values
import Verbatim.Proofs.Toml.Line
import Verbatim.Proofs.Toml.Accept
import Verbatim.Proofs.Document.Legible
import Verbatim.Proofs.Document.Edit
import Verbatim.Proofs.Reader.Edit
import Verbatim.Proofs.Document.Join
import Verbatim.Proofs.Reader.Lines
import Verbatim.Proofs.Command.Check
import Verbatim.Proofs.Reader.Comments
import Verbatim.Proofs.Toml.Forms
import Verbatim.Proofs.Document.Forms
import Verbatim.Proofs.Reader.Forms
import Verbatim.Proofs.Text.LineBreaks
import Verbatim.Proofs.Peg.LineBreaks
import Verbatim.Proofs.Toml.LineBreaks
import Verbatim.Proofs.Document.LineBreaks
import Verbatim.Proofs.Reader.LineBreaks
import Verbatim.Proofs.Toml.Trimmed
import Verbatim.Proofs.Document.Places
import Verbatim.Proofs.Reader.Places
import Verbatim.Proofs.Reader.Select
import Verbatim.Proofs.Document.Progress
import Verbatim.Proofs.Document.Runs
import Verbatim.Proofs.Toml.Contents
import Verbatim.Proofs.Toml.Integers
import Verbatim.Proofs.Reader.Strings
import Verbatim.Proofs.Reader.CommentLines
import Verbatim.Proofs.Peg.Erase
import Verbatim.Proofs.Toml.CommentLines
import Verbatim.Proofs.Document.CommentLines
import Verbatim.Proofs.Document.Verify
import Verbatim.Proofs.Reader.Hints
import Verbatim.Proofs.Files.Walk
import Verbatim.Proofs.Files.Discover
import Verbatim.Proofs.Dump.Reading
import Verbatim.Proofs.Dump.Json
import Verbatim.Proofs.Document.Dump
import Verbatim.Proofs.Reader.Dump
import Verbatim.Proofs.Peg.Attempts
import Verbatim.Proofs.Peg.Within
import Verbatim.Proofs.Toml.Within
import Verbatim.Proofs.Toml.Rejected
import Verbatim.Proofs.Toml.Adjoined
import Verbatim.Proofs.Reader.Rejected
import Verbatim.Proofs.Reader.Adjoined
import Verbatim.Proofs.Document.Markers
import Verbatim.Proofs.Text.Trim
import Verbatim.Proofs.Document.LineComments
import Verbatim.Proofs.Document.Traversal
import Verbatim.Proofs.Document.Standing
