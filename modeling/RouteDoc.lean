import RouteDoc.Action
import RouteDoc.Allowed.Basic
import RouteDoc.Allowed.Creation
import RouteDoc.Allowed.Resolved
import RouteDoc.Autoload
import RouteDoc.Capability
import RouteDoc.Code.Cursor
import RouteDoc.Code.Grammar.Basic
import RouteDoc.Code.Grammar.Call
import RouteDoc.Code.Grammar.Declaration
import RouteDoc.Code.Grammar.Expression
import RouteDoc.Code.Grammar.Name
import RouteDoc.Code.Grammar.Statement
import RouteDoc.Code.Kind
import RouteDoc.Code.Parse
import RouteDoc.Code.Token
import RouteDoc.Code.Token.Scan
import RouteDoc.Code.Tree
import RouteDoc.Command.Arguments
import RouteDoc.Command.Basic
import RouteDoc.Command.Run
import RouteDoc.Comment.Annotation
import RouteDoc.Comment.Block
import RouteDoc.Comment.Override
import RouteDoc.Date
import RouteDoc.Documenter
import RouteDoc.Fault
import RouteDoc.Files.Path
import RouteDoc.Files.System
import RouteDoc.Files.Tree
import RouteDoc.Json.Basic
import RouteDoc.Json.Parser
import RouteDoc.Json.Printer
import RouteDoc.Json.Record
import RouteDoc.Library
import RouteDoc.Main
import RouteDoc.Number.Digits
import RouteDoc.Number.Double
import RouteDoc.Number.Numeral
import RouteDoc.Parameter.Codec
import RouteDoc.Parameter.Descriptor
import RouteDoc.Parameter.Operation
import RouteDoc.Parameter.Veto
import RouteDoc.Random.Generator
import RouteDoc.Random.Stream
import RouteDoc.Settings.Basic
import RouteDoc.Settings.Layers
import RouteDoc.Settings.Value
import RouteDoc.Source.BuilderCall
import RouteDoc.Source.Literal
import RouteDoc.Source.Parsed
import RouteDoc.Source.Shape
import RouteDoc.Synthesis.Basic
import RouteDoc.Synthesis.Guess
import RouteDoc.Synthesis.Merge
import RouteDoc.Text.Blank
import RouteDoc.Text.Utf8
import RouteDoc.Text.Word
import RouteDoc.Toml.Document
import RouteDoc.Toml.Printer
import RouteDoc.Toml.Scalar
import RouteDoc.Proofs.Documenter.Proposals
import RouteDoc.Proofs.Documenter.Names
import RouteDoc.Proofs.Documenter.Calls
import RouteDoc.Proofs.Documenter.Vetoes
import RouteDoc.Proofs.Source.Search
import RouteDoc.Proofs.Random.Draws
import RouteDoc.Proofs.Synthesis.Redrawn
import RouteDoc.Proofs.Documenter.Alike
import RouteDoc.Proofs.Allowed.OwnMembers
import RouteDoc.Proofs.Command.Agreement
import RouteDoc.Proofs.Command.Independence
import RouteDoc.Proofs.Comment.Annotations
import RouteDoc.Proofs.Text.Words
import RouteDoc.Proofs.Comment.Head
import RouteDoc.Proofs.Comment.RoundTrip
import RouteDoc.Proofs.Comment.Account
import RouteDoc.Proofs.Text.Lines
import RouteDoc.Proofs.Comment.BlockLines
import RouteDoc.Proofs.Comment.BlockRoundTrip
import RouteDoc.Proofs.Allowed.Forms
import RouteDoc.Proofs.Comment.Wrapping
import RouteDoc.Proofs.Json.Record
import RouteDoc.Proofs.Parameter.ReadBack
import RouteDoc.Proofs.Documenter.ReadBack
import RouteDoc.Proofs.Code.Places
import RouteDoc.Proofs.Code.Walk
import RouteDoc.Proofs.Source.Handlers
import RouteDoc.Proofs.Source.Returns
import RouteDoc.Proofs.Source.Namespaces
import RouteDoc.Proofs.Settings.Layering
import RouteDoc.Proofs.Settings.Scalars
import RouteDoc.Proofs.Settings.Precedence
import RouteDoc.Proofs.Autoload.Segments
import RouteDoc.Proofs.Autoload.Location
import RouteDoc.Proofs.Comment.Targets
import RouteDoc.Proofs.Synthesis.Merging
import RouteDoc.Proofs.Synthesis.WellFormed
import RouteDoc.Proofs.Synthesis.ExampleSets
import RouteDoc.Proofs.Documenter.Offers
import RouteDoc.Proofs.Synthesis.Requests
import RouteDoc.Proofs.Comment.Sections
import RouteDoc.Proofs.Code.Literals
import RouteDoc.Proofs.Source.Quoting
import RouteDoc.Proofs.Source.Evaluation
import RouteDoc.Proofs.Code.Comments
import RouteDoc.Proofs.Code.Seams
import RouteDoc.Proofs.Code.Reading
import RouteDoc.Proofs.Code.Grammar
import RouteDoc.Proofs.Code.Weaving
import RouteDoc.Proofs.Source.Comments
import RouteDoc.Proofs.Synthesis.Placeholders
import RouteDoc.Proofs.Documenter.Distinct
import RouteDoc.Proofs.Source.Documentation
import RouteDoc.Proofs.Synthesis.EnumValues
import RouteDoc.Proofs.Settings.Tag
import RouteDoc.Proofs.Documenter.Actions
