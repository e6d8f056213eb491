import ShaderSource.Token.Lexer
import ShaderSource.Tree.Equality
import ShaderSource.Tree.Printer
import ShaderSource.Tree.Form
import ShaderSource.Number.Printer
import ShaderSource.Grammar.Production
import ShaderSource.Uniform
import ShaderSource.Processor
import ShaderSource.DataFile
import ShaderSource.Diagnostic.Snippet
import ShaderSource.Log
import ShaderSource.Tree.Outline
import ShaderSource.Json.Printer
import ShaderSource.Main
import ShaderSource.Proofs.Tree.Shape
import ShaderSource.Proofs.Tree.Pieces
import ShaderSource.Proofs.Grammar.Attempt
import ShaderSource.Proofs.Grammar.Repetition
import ShaderSource.Proofs.Grammar.Levels
import ShaderSource.Proofs.Token.Longest
import ShaderSource.Proofs.Token.Typeset
import ShaderSource.Proofs.Grammar.Rules
import ShaderSource.Proofs.Grammar.Words
import ShaderSource.Proofs.Grammar.Trailing
import ShaderSource.Proofs.Grammar.ExpressionSoundness
import ShaderSource.Proofs.Grammar.Soundness
import ShaderSource.Proofs.Tree.Layout
import ShaderSource.Proofs.Tree.Printable
import ShaderSource.Proofs.RoundTrip
import ShaderSource.Proofs.Number.Whole
import ShaderSource.Proofs.Number.Written
import ShaderSource.Proofs.Literal
import ShaderSource.Proofs.Tree.Walk
import ShaderSource.Proofs.Tree.Limit
import ShaderSource.Proofs.Table
import ShaderSource.Proofs.Constant
import ShaderSource.Proofs.Uniform
import ShaderSource.Proofs.Passes
import ShaderSource.Proofs.Grammar.StatementCompleteness
import ShaderSource.Proofs.Grammar.Completeness
import ShaderSource.Proofs.Session
import ShaderSource.Proofs.RuleOrder
import ShaderSource.Proofs.Grammar.Comparison
import ShaderSource.Proofs.Grammar.Parallel
import ShaderSource.Proofs.Grammar.Spans
import ShaderSource.Proofs.Token.Spacing
import ShaderSource.Proofs.Respacing
import ShaderSource.Proofs.Token.Pattern
import ShaderSource.Proofs.Token.Munch
import ShaderSource.Proofs.Token.Split
import ShaderSource.Proofs.Token.Partition
import ShaderSource.Proofs.Grammar.Progress
import ShaderSource.Proofs.Grammar.Termination
import ShaderSource.Proofs.Stopping
import ShaderSource.Proofs.Depth
import ShaderSource.Proofs.Token.Line
import ShaderSource.Proofs.Tree.Comments
import ShaderSource.Proofs.Tree.Induction
import ShaderSource.Proofs.Concatenation
import ShaderSource.Proofs.Json.Alike
import ShaderSource.Proofs.Tree.Lossless
import ShaderSource.Proofs.Command.Arguments
import ShaderSource.Proofs.Command.Agreement
import ShaderSource.Proofs.Suffix
import ShaderSource.Proofs.Observation
import ShaderSource.Proofs.Renaming
import ShaderSource.Proofs.Registration
import ShaderSource.Proofs.Completion
import ShaderSource.Proofs.Number.Fraction
import ShaderSource.Proofs.Rendering
import ShaderSource.Proofs.Text.Replacement
import ShaderSource.Proofs.Template
import ShaderSource.Proofs.Placeholder
import ShaderSource.Proofs.Number.Value
import ShaderSource.Proofs.Number.Rounding
import ShaderSource.Proofs.Number.ReadBack
import ShaderSource.Proofs.Truncation
import ShaderSource.Proofs.Text.Padding
import ShaderSource.Proofs.HostText
import ShaderSource.Proofs.Location
import ShaderSource.Proofs.Diagnostic.Row
import ShaderSource.Proofs.Diagnostic.Excerpt
import ShaderSource.Proofs.Diagnostic.Window
import ShaderSource.Proofs.Diagnostic.Picture
import ShaderSource.Proofs.Diagnostic.Layout
import ShaderSource.Proofs.Diagnostic.Report
import ShaderSource.Proofs.Text.Margin
import ShaderSource.Proofs.Indentation
import ShaderSource.Proofs.UniformKey
import ShaderSource.Proofs.Command.Listing
import ShaderSource.Proofs.Command.Preparation
import ShaderSource.Proofs.Command.Processing
