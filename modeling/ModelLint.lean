import ModelLint.Command.Tool
import ModelLint.Main
import ModelLint.Proofs.Program.Unfolding
import ModelLint.Proofs.Program.Linking
import ModelLint.Proofs.Program.Relinking
import ModelLint.Proofs.Program.Linked
import ModelLint.Proofs.Program.Contexts
import ModelLint.Proofs.Program.Layout
import ModelLint.Proofs.Rules.Evaluation
import ModelLint.Proofs.Rules.SharedMap
import ModelLint.Proofs.Source.Occurrences
import ModelLint.Proofs.Source.Grammar.Reading
import ModelLint.Proofs.Source.Grammar.Expressions
import ModelLint.Proofs.Source.Grammar.Statements
import ModelLint.Proofs.Source.Building
import ModelLint.Proofs.Source.Nodes
import ModelLint.Proofs.Source.Statements
import ModelLint.Proofs.Source.Fields
import ModelLint.Proofs.Source.Unit
import ModelLint.Proofs.Source.Layers
import ModelLint.Proofs.Source.Handlers
import ModelLint.Proofs.Source.Loading
import ModelLint.Proofs.Source.Nesting
import ModelLint.Proofs.Rules.ImportTime
import ModelLint.Proofs.Program.Functions
import ModelLint.Proofs.Document.Building
import ModelLint.Proofs.Document.Nodes
import ModelLint.Proofs.Document.Loading
import ModelLint.Proofs.Rules.ResourceDisposal
import ModelLint.Proofs.Document.Disposal
import ModelLint.Proofs.Source.Disposal
import ModelLint.Proofs.Source.Events
import ModelLint.Proofs.Source.Resolution
import ModelLint.Proofs.Source.Tracing
import ModelLint.Proofs.Source.Captures
import ModelLint.Proofs.Rules.Suppression
import ModelLint.Proofs.Rules.Settings
import ModelLint.Proofs.Rules.Diagnostics
import ModelLint.Proofs.Source.Routines
import ModelLint.Proofs.Source.Reads
import ModelLint.Proofs.Program.Catches
import ModelLint.Proofs.Source.Counting
import ModelLint.Proofs.Source.Catches
import ModelLint.Proofs.Source.Places
import ModelLint.Proofs.Source.Members
import ModelLint.Proofs.Rules.ModuleFunctions
import ModelLint.Proofs.Source.Steps
import ModelLint.Proofs.Source.Blocks
import ModelLint.Proofs.Source.Sites
import ModelLint.Proofs.Source.Operands
import ModelLint.Proofs.Source.Holding
import ModelLint.Proofs.Source.Contents
import ModelLint.Proofs.Source.Calls
import ModelLint.Proofs.Source.OwnFields
import ModelLint.Proofs.Source.Bindings
import ModelLint.Proofs.Source.Sparing
import ModelLint.Proofs.Source.Declaring
import ModelLint.Proofs.Source.Declarations
import ModelLint.Proofs.Rules.Locked
import ModelLint.Proofs.Rules.Managed
import ModelLint.Proofs.Rules.OwnFields
import ModelLint.Proofs.Rules.GenericException
import ModelLint.Proofs.Rules.PatternLists
import ModelLint.Proofs.Program.Resembling
import ModelLint.Proofs.Rules.Resembling
import ModelLint.Proofs.Rules.Comments
import ModelLint.Proofs.Program.Ancestors
import ModelLint.Proofs.Program.Traversal
import ModelLint.Proofs.Program.Edits
import ModelLint.Proofs.Rules.Edits
import ModelLint.Proofs.Rules.Insertions
import ModelLint.Proofs.Program.Enclosures
import ModelLint.Proofs.Rules.Enclosures
import ModelLint.Proofs.Json.RoundTrip
import ModelLint.Proofs.Report.Records
import ModelLint.Proofs.Report.Listing
import ModelLint.Proofs.Report.Order
import ModelLint.Proofs.Document.Origins
import ModelLint.Proofs.Document.Spans
import ModelLint.Proofs.Report.Lines
import ModelLint.Proofs.Data.Records
import ModelLint.Proofs.Report.Tables
import ModelLint.Proofs.Workspace.Survey
import ModelLint.Proofs.Configuration.Reading
import ModelLint.Proofs.Configuration.Described
import ModelLint.Proofs.Configuration.Exported
import ModelLint.Proofs.Configuration.Files
import ModelLint.Proofs.Json.Values
import ModelLint.Proofs.Rules.Wildcards
import ModelLint.Proofs.Rules.TypeNames
import ModelLint.Proofs.Source.Lexemes
import ModelLint.Proofs.Source.CommentScan
import ModelLint.Proofs.Source.LineEnds
import ModelLint.Proofs.Source.CommentPlaces
import ModelLint.Proofs.Source.CommentsFound
import ModelLint.Proofs.Source.Comments
import ModelLint.Proofs.Source.Placeless
import ModelLint.Proofs.Source.Spread
import ModelLint.Proofs.Source.Alike
import ModelLint.Proofs.Source.Quiet
import ModelLint.Proofs.Source.Spreading
import ModelLint.Proofs.Source.SpreadUnit
import ModelLint.Proofs.Source.Stacks
import ModelLint.Proofs.Program.References
import ModelLint.Proofs.Document.References
import ModelLint.Proofs.Workspace.References
