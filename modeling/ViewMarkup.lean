import ViewMarkup.CommandLine.Arguments
import ViewMarkup.CommandLine.Session
import ViewMarkup.Compilation
import ViewMarkup.Diagnostic
import ViewMarkup.Document.Basic
import ViewMarkup.Document.Draft
import ViewMarkup.Document.Frame
import ViewMarkup.Document.Record
import ViewMarkup.Fields
import ViewMarkup.Json.Basic
import ViewMarkup.Json.Reader
import ViewMarkup.Json.Writer
import ViewMarkup.Line.Basic
import ViewMarkup.Line.Component
import ViewMarkup.Line.Declaration
import ViewMarkup.Line.Directive
import ViewMarkup.Line.Prose
import ViewMarkup.Line.Reading
import ViewMarkup.Log
import ViewMarkup.Main
import ViewMarkup.Node.Basic
import ViewMarkup.Numeral.Binary64
import ViewMarkup.Numeral.Literal
import ViewMarkup.Numeral.Shortest
import ViewMarkup.Outline
import ViewMarkup.Path
import ViewMarkup.Proofs.Compilation
import ViewMarkup.Proofs.Condition.Grammar
import ViewMarkup.Proofs.Condition.Guarded
import ViewMarkup.Proofs.Condition.Lexemes
import ViewMarkup.Proofs.Document.Account
import ViewMarkup.Proofs.Document.Apart
import ViewMarkup.Proofs.Document.Bare
import ViewMarkup.Proofs.Document.BlankLines
import ViewMarkup.Proofs.Document.Capture
import ViewMarkup.Proofs.Document.Concatenation
import ViewMarkup.Proofs.Document.Contents
import ViewMarkup.Proofs.Document.Diagnostics
import ViewMarkup.Proofs.Document.Expressions
import ViewMarkup.Proofs.Document.Extent
import ViewMarkup.Proofs.Document.Families
import ViewMarkup.Proofs.Document.Growth
import ViewMarkup.Proofs.Document.Items
import ViewMarkup.Proofs.Document.Layout
import ViewMarkup.Proofs.Document.LineEnds
import ViewMarkup.Proofs.Document.Lists
import ViewMarkup.Proofs.Document.Nesting
import ViewMarkup.Proofs.Document.Places
import ViewMarkup.Proofs.Document.Realign
import ViewMarkup.Proofs.Document.Reindent
import ViewMarkup.Proofs.Document.Renumber
import ViewMarkup.Proofs.Document.Scope
import ViewMarkup.Proofs.Document.Script
import ViewMarkup.Proofs.Document.Settle
import ViewMarkup.Proofs.Document.Shape
import ViewMarkup.Proofs.Document.Spans
import ViewMarkup.Proofs.Document.Stamps
import ViewMarkup.Proofs.Document.Step
import ViewMarkup.Proofs.Document.WellFormed
import ViewMarkup.Proofs.Fallback
import ViewMarkup.Proofs.Fields
import ViewMarkup.Proofs.Json.Grammar
import ViewMarkup.Proofs.Json.Indented
import ViewMarkup.Proofs.Json.Integers
import ViewMarkup.Proofs.Json.Numbers
import ViewMarkup.Proofs.Json.OneLine
import ViewMarkup.Proofs.Json.Reading
import ViewMarkup.Proofs.Json.Strings
import ViewMarkup.Proofs.Json.Writing
import ViewMarkup.Proofs.Line.Components
import ViewMarkup.Proofs.Line.Declarations
import ViewMarkup.Proofs.Line.Expressions
import ViewMarkup.Proofs.Line.Faults
import ViewMarkup.Proofs.Line.Fetches
import ViewMarkup.Proofs.Line.Moved
import ViewMarkup.Proofs.Line.Names
import ViewMarkup.Proofs.Line.OneLine
import ViewMarkup.Proofs.Line.Outcome
import ViewMarkup.Proofs.Line.Renumber
import ViewMarkup.Proofs.Line.Styles
import ViewMarkup.Proofs.Node.Places
import ViewMarkup.Proofs.Node.Preorder
import ViewMarkup.Proofs.Node.Shape
import ViewMarkup.Proofs.Numeral.Rounding
import ViewMarkup.Proofs.Numeral.Whole
import ViewMarkup.Proofs.Outline.Ranges
import ViewMarkup.Proofs.Outline.Symbols
import ViewMarkup.Proofs.Path
import ViewMarkup.Proofs.Property.Gaps
import ViewMarkup.Proofs.Property.Sealed
import ViewMarkup.Proofs.Property.Spelling
import ViewMarkup.Proofs.Property.Tokens
import ViewMarkup.Proofs.React.Bindings
import ViewMarkup.Proofs.React.Declarations
import ViewMarkup.Proofs.React.Effects
import ViewMarkup.Proofs.React.Guards
import ViewMarkup.Proofs.React.Imports
import ViewMarkup.Proofs.React.Indentation
import ViewMarkup.Proofs.React.MarkupLines
import ViewMarkup.Proofs.React.Nesting
import ViewMarkup.Proofs.React.OneLine
import ViewMarkup.Proofs.React.Parameters
import ViewMarkup.Proofs.React.References
import ViewMarkup.Proofs.React.Shown
import ViewMarkup.Proofs.Sidecar
import ViewMarkup.Proofs.Signature.Arrows
import ViewMarkup.Proofs.Signature.Coverage
import ViewMarkup.Proofs.Signature.Entries
import ViewMarkup.Proofs.Signature.RoundTrip
import ViewMarkup.Proofs.Signature.Separators
import ViewMarkup.Proofs.Text.Distinct
import ViewMarkup.Proofs.Text.Flush
import ViewMarkup.Proofs.Text.Lines
import ViewMarkup.Proofs.Text.Pieces
import ViewMarkup.Proofs.Text.Scan
import ViewMarkup.Proofs.Text.Trim
import ViewMarkup.Proofs.Text.Words
import ViewMarkup.Proofs.Value.Braced
import ViewMarkup.Proofs.Value.Declared
import ViewMarkup.Proofs.Value.Integers
import ViewMarkup.Proofs.Workspace.Components
import ViewMarkup.Proofs.Workspace.Discovery
import ViewMarkup.Proofs.Workspace.Files
import ViewMarkup.Proofs.Workspace.Imports
import ViewMarkup.Proofs.Workspace.Isolation
import ViewMarkup.Proofs.Workspace.Outputs
import ViewMarkup.Proofs.Workspace.Progress
import ViewMarkup.Proofs.Workspace.Runs
import ViewMarkup.Proofs.Workspace.Sources
import ViewMarkup.Property.Token
import ViewMarkup.Property.Value
import ViewMarkup.React.Effect
import ViewMarkup.React.Literal
import ViewMarkup.React.Markup
import ViewMarkup.React.Module
import ViewMarkup.Resolver
import ViewMarkup.Settings.Basic
import ViewMarkup.Settings.Reader
import ViewMarkup.Settings.Value
import ViewMarkup.Sidecar
import ViewMarkup.Signature
import ViewMarkup.Text.Base64
import ViewMarkup.Text.Basic
import ViewMarkup.Text.Blank
import ViewMarkup.Text.Case
import ViewMarkup.Text.Digit
import ViewMarkup.Text.Lines
import ViewMarkup.Text.Printable
import ViewMarkup.Text.Quoted
import ViewMarkup.Text.Scan
import ViewMarkup.Text.Table
import ViewMarkup.Text.Utf8
import ViewMarkup.Text.Word
import ViewMarkup.Value.Basic
import ViewMarkup.Value.Braced
import ViewMarkup.Value.Declared
import ViewMarkup.Value.Reference
import ViewMarkup.Workspace.Compile
import ViewMarkup.Workspace.Source
import ViewMarkup.Workspace.Tree
import ViewMarkup.Yaml.Basic
import ViewMarkup.Yaml.Block
import ViewMarkup.Yaml.Error
import ViewMarkup.Yaml.Node
import ViewMarkup.Yaml.Place
import ViewMarkup.Yaml.Plain
import ViewMarkup.Yaml.Quoted
import ViewMarkup.Yaml.Reader
import ViewMarkup.Yaml.Scalar
import ViewMarkup.Yaml.Tag
import ViewMarkup.Yaml.Timestamp
import ViewMarkup.Yaml.Token
