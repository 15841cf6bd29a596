import QueryWorkbench.Json.Binary64
import QueryWorkbench.NodeTypes.Navigator
import QueryWorkbench.Diagnostic.Report
import QueryWorkbench.Language.Suggestion
import QueryWorkbench.Tree.Printer
import QueryWorkbench.Check.Service
import QueryWorkbench.CommandLine.Run
import QueryWorkbench.Main
import QueryWorkbench.Proofs.EngineMemory
import QueryWorkbench.Proofs.CurrentDiagnostics
import QueryWorkbench.Proofs.Columns
import QueryWorkbench.Proofs.Lines
import QueryWorkbench.Proofs.NavigatorRuns
import QueryWorkbench.Proofs.Positions
import QueryWorkbench.Proofs.JsonGrammar
import QueryWorkbench.Proofs.JsonLexing
import QueryWorkbench.Proofs.JsonPlaces
import QueryWorkbench.Proofs.JsonReading
import QueryWorkbench.Proofs.JsonAcceptance
import QueryWorkbench.Proofs.RecentListings
import QueryWorkbench.Proofs.TreeWalk
import QueryWorkbench.Proofs.JsonSpans
import QueryWorkbench.Proofs.PatternMatches
import QueryWorkbench.Proofs.HostMatches
import QueryWorkbench.Proofs.LineEnds
import QueryWorkbench.Proofs.EmbeddedChecks
import QueryWorkbench.Proofs.DocumentIsolation
import QueryWorkbench.Proofs.EngineRuns
import QueryWorkbench.Proofs.TicketLifetimes
import QueryWorkbench.Proofs.JsonContinuations
import QueryWorkbench.Proofs.JsonRefusals
import QueryWorkbench.Proofs.JsonLookahead
import QueryWorkbench.Proofs.JsonErrorPlaces
import QueryWorkbench.Proofs.JsonCodec
import QueryWorkbench.Proofs.PositionScan
import QueryWorkbench.Proofs.SchemaElements
import QueryWorkbench.Proofs.PlainNames
import QueryWorkbench.Proofs.JsonLongestMatch
import QueryWorkbench.Proofs.StatedOffsets
import QueryWorkbench.Proofs.QueryErrorPlaces
import QueryWorkbench.Proofs.OutlineRanges
import QueryWorkbench.Proofs.TableRebuilds
import QueryWorkbench.Proofs.Directives
import QueryWorkbench.Proofs.Words
import QueryWorkbench.Proofs.EditScripts
import QueryWorkbench.Proofs.PrintedTrees
import QueryWorkbench.Proofs.Suggestions
import QueryWorkbench.Proofs.SanitizedMessages
import QueryWorkbench.Proofs.HeadingLines
import QueryWorkbench.Proofs.LineTables
