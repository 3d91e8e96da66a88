import ExportSurface.Analysis
import ExportSurface.Ast.Builder
import ExportSurface.Ast.Candidate
import ExportSurface.Ast.Literal
import ExportSurface.Ast.MemberPath
import ExportSurface.Ast.Node
import ExportSurface.Binding.Diagnostic
import ExportSurface.Binding.Passes
import ExportSurface.Binding.Resolver
import ExportSurface.Command.Arguments
import ExportSurface.Command.Run
import ExportSurface.Estree.Lowering
import ExportSurface.File.Path
import ExportSurface.File.Store
import ExportSurface.Ignore.Glob
import ExportSurface.Ignore.Rules
import ExportSurface.JavaScript.Cursor
import ExportSurface.JavaScript.Grammar.Basic
import ExportSurface.JavaScript.Grammar.Expression
import ExportSurface.JavaScript.Grammar.Markup
import ExportSurface.JavaScript.Grammar.Statement
import ExportSurface.JavaScript.Lowering
import ExportSurface.JavaScript.Numeral
import ExportSurface.JavaScript.StringText
import ExportSurface.JavaScript.Token
import ExportSurface.JavaScript.Tree
import ExportSurface.Json.Printer
import ExportSurface.Json.Reader
import ExportSurface.Json.Value
import ExportSurface.Language
import ExportSurface.Main
import ExportSurface.Number.Binary64
import ExportSurface.Number.Digit
import ExportSurface.Number.Shortest
import ExportSurface.Settings
import ExportSurface.SettingsFile
import ExportSurface.Sources
import ExportSurface.Symbol.Graph
import ExportSurface.Symbol.Props
import ExportSurface.Symbol.Search
import ExportSurface.Terminal.Columns
import ExportSurface.Terminal.Style
import ExportSurface.Terminal.Table
import ExportSurface.Text.CodePoint
import ExportSurface.Toml.Reader
import ExportSurface.Toml.Scalar
import ExportSurface.Toml.Text
import ExportSurface.Toml.Value
import ExportSurface.Proofs.Reachability
import ExportSurface.Proofs.Programs
import ExportSurface.Proofs.BinderPrograms
import ExportSurface.Proofs.Changes
import ExportSurface.Proofs.SafeTasks
import ExportSurface.Proofs.CheckedBinding
import ExportSurface.Proofs.Bounds
import ExportSurface.Proofs.WellFormed
import ExportSurface.Proofs.ExportFlags
import ExportSurface.Proofs.Renaming
import ExportSurface.Proofs.Mirrors
import ExportSurface.Proofs.MemberChains
import ExportSurface.Proofs.Mirroring
import ExportSurface.Proofs.SeedIndependence
import ExportSurface.Proofs.Reading
import ExportSurface.Proofs.Channels
import ExportSurface.Proofs.Evaluations
import ExportSurface.Proofs.Footprint
import ExportSurface.Proofs.DeclaredExports
import ExportSurface.Proofs.ArenaLayout
import ExportSurface.Proofs.TreeSchema
import ExportSurface.Proofs.NestingGuards
import ExportSurface.Proofs.Silence
import ExportSurface.Proofs.Truncation
import ExportSurface.Proofs.Evolution
import ExportSurface.Proofs.HoistedNames
import ExportSurface.Proofs.WindowAlias
import ExportSurface.Proofs.Provenance
import ExportSurface.Proofs.ResolvedKeys
import ExportSurface.Proofs.DeclarationOrder
import ExportSurface.Proofs.PathSearch
import ExportSurface.Proofs.Framing
import ExportSurface.Proofs.AssignmentChains
import ExportSurface.Proofs.WrittenTexts
import ExportSurface.Proofs.SettingsDocument
import ExportSurface.Proofs.SavedSettings
import ExportSurface.Proofs.CandidateListing
import ExportSurface.Proofs.StringValues
import ExportSurface.Proofs.ExcludedDirectories
import ExportSurface.Proofs.RoundingIntervals
import ExportSurface.Proofs.NumberKeys
import ExportSurface.Proofs.BuiltPaths
