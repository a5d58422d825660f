import PropDocs.Module.Loading
import PropDocs.Source.Parser
import PropDocs.Source.Expressions
import PropDocs.Source.Classes
import PropDocs.Source.Types
import PropDocs.Source.Parse
import PropDocs.Source.Token
import PropDocs.TypeExpr.Printer
import PropDocs.TagMap
import PropDocs.Number.Shortest
import PropDocs.Json.Reader
import PropDocs.Json.Writer
import PropDocs.Json.Record
import PropDocs.Json.Comments
import PropDocs.FileSystem
import PropDocs.Compiler.Config
import PropDocs.Program.Build
import PropDocs.Program.Symbols
import PropDocs.Engine.SymbolTable
import PropDocs.Docs.Encoding
import PropDocs.Toml.Reader
import PropDocs.Main
import PropDocs.Proofs.StarExports
import PropDocs.Proofs.MentionedSpecifiers
import PropDocs.Proofs.NormalPaths
import PropDocs.Proofs.SpecifierTargets
import PropDocs.Proofs.Loading
import PropDocs.Proofs.Agreement
import PropDocs.Proofs.Composition
import PropDocs.Proofs.LinkIntegrity
import PropDocs.Proofs.MemberNames
import PropDocs.Proofs.ExportResolution
import PropDocs.Proofs.WrittenConstituents
import PropDocs.Proofs.ScopeHygiene
import PropDocs.Proofs.UniqueReadability
import PropDocs.Proofs.OptionIndependence
import PropDocs.Proofs.RootFailures
import PropDocs.Proofs.JsonRoundTrip
import PropDocs.Proofs.DocumentRoundTrip
import PropDocs.Proofs.ContractProps
import PropDocs.Proofs.InheritedMembers
import PropDocs.Proofs.NullishLeaves
import PropDocs.Proofs.DocumentedDefaults
import PropDocs.Proofs.Enumerations
import PropDocs.Proofs.PrintedLines
import PropDocs.Proofs.ConfigChain
import PropDocs.Json.Grammar
import PropDocs.Proofs.JsonGrammar
import PropDocs.Proofs.CommentStripping
import PropDocs.Proofs.CommentRecovery
import PropDocs.Proofs.MendedTexts
import PropDocs.Proofs.CommentLines
import PropDocs.Proofs.CommentRoundTrip
import PropDocs.Proofs.FirstOccurrences
import PropDocs.Proofs.PropMaps
import PropDocs.Proofs.SharedEngine
import PropDocs.Proofs.UtilityTypes
import PropDocs.Proofs.TagLines
import PropDocs.TypeExpr.Place
import PropDocs.Proofs.PrintedPlaces
import PropDocs.Proofs.LoneOperands
