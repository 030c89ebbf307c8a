import GraphScript.Decimal.Binary
import GraphScript.Decimal.Layout
import GraphScript.Decimal.Reading
import GraphScript.Decimal.Shortest
import GraphScript.Declaration
import GraphScript.Diagnostic.Basic
import GraphScript.Diagnostic.Code
import GraphScript.Diagnostic.Log
import GraphScript.Draft
import GraphScript.EdgeOperator
import GraphScript.Environment
import GraphScript.Evaluation
import GraphScript.EvaluationError
import GraphScript.Fault
import GraphScript.Graph.Analysis
import GraphScript.Graph.Arc
import GraphScript.Graph.Basic
import GraphScript.Graph.Text
import GraphScript.Json.Basic
import GraphScript.Json.Decoding
import GraphScript.Json.Document
import GraphScript.Json.Encoding
import GraphScript.Json.EvaluationEncoding
import GraphScript.Json.Numeral
import GraphScript.Json.Shape
import GraphScript.Model
import GraphScript.ModelBuilder
import GraphScript.NameMap
import GraphScript.Program.AttributeReader
import GraphScript.Program.Basic
import GraphScript.Program.BodyReader
import GraphScript.Program.Cursor
import GraphScript.Program.DeclarationReader
import GraphScript.Program.Reader
import GraphScript.Registry
import GraphScript.Resolution
import GraphScript.Scalar
import GraphScript.Script
import GraphScript.Search.Algorithm
import GraphScript.Search.Commands
import GraphScript.Search.Encoding
import GraphScript.Search.Exploration
import GraphScript.Search.Failure
import GraphScript.Search.Requirements
import GraphScript.Search.Run
import GraphScript.Search.ShortestPaths
import GraphScript.Search.Weight
import GraphScript.Source.File
import GraphScript.Source.Span
import GraphScript.Text.Extending
import GraphScript.Text.Quoted
import GraphScript.Text.Ranges
import GraphScript.Text.Unprintable
import GraphScript.Token.Basic
import GraphScript.Token.Literal
import GraphScript.Token.Scanner
import GraphScript.Value
import GraphScript.Proofs.Program.Reading
import GraphScript.Proofs.Program.WithoutPlaces
import GraphScript.Proofs.Program.Soundness
import GraphScript.Proofs.Program.Completeness
import GraphScript.Proofs.Model.Meaning
import GraphScript.Proofs.Model.Contribution
import GraphScript.Proofs.Model.Drafts
import GraphScript.Proofs.NameMap
import GraphScript.Proofs.Model.Reference
import GraphScript.Proofs.Model.WrittenOrder
import GraphScript.Proofs.Model.DeclarationErrors
import GraphScript.Proofs.Model.Isolation
import GraphScript.Proofs.Model.DenotedEdges
import GraphScript.Proofs.Model.Validity
import GraphScript.Proofs.Source.Lines
import GraphScript.Proofs.Token.Gap
import GraphScript.Proofs.Token.Spelling
import GraphScript.Proofs.Token.Lexemes
import GraphScript.Proofs.Token.FaultlessLexemes
import GraphScript.Proofs.Token.Scanning
import GraphScript.Proofs.Token.Cutting
import GraphScript.Proofs.Model.ScopeHistory
import GraphScript.Proofs.Model.LookedUpNames
import GraphScript.Proofs.Evaluation.Succession
import GraphScript.Proofs.Evaluation.Calls
import GraphScript.Proofs.Evaluation.ResolvedArguments
import GraphScript.Proofs.Evaluation.UnmentionedVariables
import GraphScript.Proofs.Search.KnownNodes
import GraphScript.Proofs.Model.HeldNames
import GraphScript.Proofs.Evaluation.SingleAssignment
import GraphScript.Proofs.Search.Walks
import GraphScript.Proofs.Search.ReachedNodes
import GraphScript.Proofs.Search.DepthFirst
import GraphScript.Proofs.Search.WalkSums
import GraphScript.Proofs.Search.Relaxation
import GraphScript.Proofs.Search.LeastSums
import GraphScript.Proofs.Rounding.NearestEven
import GraphScript.Proofs.Rounding.Unpacked
import GraphScript.Proofs.Rounding.Packed
import GraphScript.Proofs.Rounding.Sums
import GraphScript.Proofs.Search.FloatWeights
import GraphScript.Proofs.Search.ShortestDistances
import GraphScript.Proofs.Search.PathSteps
import GraphScript.Proofs.Search.TracedPaths
import GraphScript.Proofs.Search.EarlyStop
import GraphScript.Proofs.Search.Levels
import GraphScript.Proofs.Search.BreadthFirst
import GraphScript.Proofs.Search.Connection
import GraphScript.Proofs.Evaluation.Paths
import GraphScript.Proofs.Search.InertArcs
import GraphScript.Proofs.Search.ReachedDistances
import GraphScript.Proofs.Search.StepRecords
import GraphScript.Proofs.Search.TraversalSteps
import GraphScript.Proofs.Search.SettlingOrder
import GraphScript.Proofs.Search.SettledSteps
import GraphScript.Proofs.Search.RunChecks
import GraphScript.Proofs.Program.Interruption
import GraphScript.Proofs.Program.Recovery
import GraphScript.Proofs.Program.Garbage
import GraphScript.Proofs.Source.Positions
import GraphScript.Proofs.Token.Places
import GraphScript.Proofs.Program.Parts
import GraphScript.Proofs.Program.PlacedReading
import GraphScript.Proofs.Program.PlacedStatements
import GraphScript.Proofs.Program.Hulls
import GraphScript.Proofs.Evaluation.ErrorPlaces
import GraphScript.Proofs.Evaluation.ErrorReports
import GraphScript.Proofs.Search.Loops
import GraphScript.Proofs.Search.NeighborTables
import GraphScript.Proofs.Diagnostic.Collecting
import GraphScript.Proofs.Evaluation.EffectiveAttributes
import GraphScript.Proofs.Source.Bytes
import GraphScript.Proofs.Token.CharacterReports
import GraphScript.Proofs.Source.Blanking
import GraphScript.Proofs.Token.BlankedText
import GraphScript.Proofs.Token.StrayCharacters
import GraphScript.Proofs.Token.ErrorLimit
import GraphScript.Proofs.Search.NamedArguments
import GraphScript.Proofs.Model.DenotedNodes
import GraphScript.Proofs.Evaluation.NodeVariables
import GraphScript.Proofs.Model.RepeatedStatements
import GraphScript.Proofs.Program.UncutTokens
import GraphScript.Proofs.Program.CutReading
import GraphScript.Proofs.Program.CutLoops
import GraphScript.Proofs.Program.Progress
