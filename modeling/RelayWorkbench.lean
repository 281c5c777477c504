import RelayWorkbench.CommandLine.Arguments
import RelayWorkbench.CommandLine.Execution
import RelayWorkbench.CommandLine.Failure
import RelayWorkbench.CommandLine.Invocation
import RelayWorkbench.CommandLine.Session
import RelayWorkbench.CommandLine.Style
import RelayWorkbench.Coordinates
import RelayWorkbench.GraphQL.Argument
import RelayWorkbench.GraphQL.Construction
import RelayWorkbench.GraphQL.CursorContext
import RelayWorkbench.GraphQL.Directed
import RelayWorkbench.GraphQL.Document
import RelayWorkbench.GraphQL.Document.Executable
import RelayWorkbench.GraphQL.Document.Parser
import RelayWorkbench.GraphQL.Document.Printer
import RelayWorkbench.GraphQL.Document.Reading
import RelayWorkbench.GraphQL.Document.Spans
import RelayWorkbench.GraphQL.Document.TypeSystem
import RelayWorkbench.GraphQL.Document.Values
import RelayWorkbench.GraphQL.Lexeme
import RelayWorkbench.GraphQL.Node
import RelayWorkbench.GraphQL.Replacer
import RelayWorkbench.GraphQL.Schema
import RelayWorkbench.GraphQL.Schema.Build
import RelayWorkbench.GraphQL.Schema.BuiltIn
import RelayWorkbench.GraphQL.StringValue
import RelayWorkbench.GraphQL.TypeRef
import RelayWorkbench.Host.Edit
import RelayWorkbench.Host.Envelope
import RelayWorkbench.Host.Excerpt
import RelayWorkbench.Host.Language
import RelayWorkbench.Host.QuotedBlock
import RelayWorkbench.Host.Region
import RelayWorkbench.Host.RegionSpace
import RelayWorkbench.Host.Revision
import RelayWorkbench.Host.TemplateLiteral
import RelayWorkbench.Main
import RelayWorkbench.Markup.Datum
import RelayWorkbench.Markup.Json
import RelayWorkbench.Markup.Json.Printer
import RelayWorkbench.Markup.Yaml
import RelayWorkbench.Markup.Yaml.Node
import RelayWorkbench.Markup.Yaml.Place
import RelayWorkbench.Markup.Yaml.Scalar
import RelayWorkbench.Path
import RelayWorkbench.Proofs.CommandLine.FailedRuns
import RelayWorkbench.Proofs.CommandLine.StepFrames
import RelayWorkbench.Proofs.GraphQL.ArgumentMerging
import RelayWorkbench.Proofs.GraphQL.Content
import RelayWorkbench.Proofs.GraphQL.CursorField
import RelayWorkbench.Proofs.GraphQL.CursorVariables
import RelayWorkbench.Proofs.GraphQL.CursorWords
import RelayWorkbench.Proofs.GraphQL.DirectiveRuns
import RelayWorkbench.Proofs.GraphQL.Directives
import RelayWorkbench.Proofs.GraphQL.Indentation
import RelayWorkbench.Proofs.GraphQL.IndexedRewriting
import RelayWorkbench.Proofs.GraphQL.Layout
import RelayWorkbench.Proofs.GraphQL.Leaves
import RelayWorkbench.Proofs.GraphQL.LegibleSchemas
import RelayWorkbench.Proofs.GraphQL.Names
import RelayWorkbench.Proofs.GraphQL.Neat
import RelayWorkbench.Proofs.GraphQL.NeatPrinting
import RelayWorkbench.Proofs.GraphQL.Nesting
import RelayWorkbench.Proofs.GraphQL.NodeSpans
import RelayWorkbench.Proofs.GraphQL.Owners
import RelayWorkbench.Proofs.GraphQL.Passing
import RelayWorkbench.Proofs.GraphQL.Pieces
import RelayWorkbench.Proofs.GraphQL.Placement
import RelayWorkbench.Proofs.GraphQL.PlainDefinitions
import RelayWorkbench.Proofs.GraphQL.PrintedStrings
import RelayWorkbench.Proofs.GraphQL.PrintedTypes
import RelayWorkbench.Proofs.GraphQL.ReadingInputs
import RelayWorkbench.Proofs.GraphQL.ReadingLeaves
import RelayWorkbench.Proofs.GraphQL.ReadingLocations
import RelayWorkbench.Proofs.GraphQL.ReadingNests
import RelayWorkbench.Proofs.GraphQL.ReadingPlaces
import RelayWorkbench.Proofs.GraphQL.ReadingVariables
import RelayWorkbench.Proofs.GraphQL.Reads
import RelayWorkbench.Proofs.GraphQL.RecognisedFields
import RelayWorkbench.Proofs.GraphQL.Reprinting
import RelayWorkbench.Proofs.GraphQL.Respanning
import RelayWorkbench.Proofs.GraphQL.SchemaWords
import RelayWorkbench.Proofs.GraphQL.SpanlessPrinting
import RelayWorkbench.Proofs.GraphQL.SparedStrings
import RelayWorkbench.Proofs.GraphQL.Takes
import RelayWorkbench.Proofs.GraphQL.Tells
import RelayWorkbench.Proofs.GraphQL.Trails
import RelayWorkbench.Proofs.GraphQL.Uncommented
import RelayWorkbench.Proofs.GraphQL.VariableUses
import RelayWorkbench.Proofs.GraphQL.Words
import RelayWorkbench.Proofs.GraphQL.WrittenLexemes
import RelayWorkbench.Proofs.GraphQL.WrittenVariables
import RelayWorkbench.Proofs.Host.BlockWeaving
import RelayWorkbench.Proofs.Host.CheckedPlaces
import RelayWorkbench.Proofs.Host.CheckedScanning
import RelayWorkbench.Proofs.Host.CoordinateSquare
import RelayWorkbench.Proofs.Host.DisjointEdits
import RelayWorkbench.Proofs.Host.EmbeddedRegions
import RelayWorkbench.Proofs.Host.Envelopes
import RelayWorkbench.Proofs.Host.GapsAndBlocks
import RelayWorkbench.Proofs.Host.RegionPlaces
import RelayWorkbench.Proofs.Host.Revising
import RelayWorkbench.Proofs.Host.ScriptLiterals
import RelayWorkbench.Proofs.Host.SingleEdits
import RelayWorkbench.Proofs.Host.SpaceOrder
import RelayWorkbench.Proofs.Host.Sparing
import RelayWorkbench.Proofs.Host.StableEnvelopes
import RelayWorkbench.Proofs.Host.TemplateGrammar
import RelayWorkbench.Proofs.Host.TemplateSteps
import RelayWorkbench.Proofs.Host.TemplateWeaving
import RelayWorkbench.Proofs.Host.Weaving
import RelayWorkbench.Proofs.Host.WrittenBlocks
import RelayWorkbench.Proofs.Ranks
import RelayWorkbench.Proofs.Relay.CheckedActions
import RelayWorkbench.Proofs.Relay.ConnectionKeys
import RelayWorkbench.Proofs.Relay.CursorTypes
import RelayWorkbench.Proofs.Relay.DeclaredTypes
import RelayWorkbench.Proofs.Relay.EditsAndComments
import RelayWorkbench.Proofs.Relay.EditsInHost
import RelayWorkbench.Proofs.Relay.Extraction
import RelayWorkbench.Proofs.Relay.ExtractionTargets
import RelayWorkbench.Proofs.Relay.FragmentHead
import RelayWorkbench.Proofs.Relay.LayoutEdits
import RelayWorkbench.Proofs.Relay.ModuleTexts
import RelayWorkbench.Proofs.Relay.NewComponents
import RelayWorkbench.Proofs.Relay.OfferedActions
import RelayWorkbench.Proofs.Relay.OfferedEdits
import RelayWorkbench.Proofs.Relay.OfferedLeaves
import RelayWorkbench.Proofs.Relay.Offers
import RelayWorkbench.Proofs.Relay.OwnedSets
import RelayWorkbench.Proofs.Relay.PaginatedConnections
import RelayWorkbench.Proofs.Relay.Performing
import RelayWorkbench.Proofs.Relay.Reformatting
import RelayWorkbench.Proofs.Relay.RegionEdits
import RelayWorkbench.Proofs.Relay.Reindenting
import RelayWorkbench.Proofs.Relay.ScaffoldedModules
import RelayWorkbench.Proofs.Replacer.Answers
import RelayWorkbench.Proofs.Replacer.Leaves
import RelayWorkbench.Proofs.Replacer.Rebuilding
import RelayWorkbench.Proofs.Replacer.Targets
import RelayWorkbench.Proofs.StatefulRun
import RelayWorkbench.Proofs.Text.Blanks
import RelayWorkbench.Proofs.Text.ByteStrings
import RelayWorkbench.Proofs.Text.CursorMarkers
import RelayWorkbench.Proofs.Text.Cutting
import RelayWorkbench.Proofs.Text.Indenting
import RelayWorkbench.Proofs.Text.LineColumns
import RelayWorkbench.Proofs.Text.LineStarts
import RelayWorkbench.Proofs.Text.Traps
import RelayWorkbench.Proofs.Workspace.CacheRuns
import RelayWorkbench.Proofs.Workspace.ConfigurationSearch
import RelayWorkbench.Proofs.Workspace.FreshSchemas
import RelayWorkbench.Proofs.Workspace.LoadHistories
import RelayWorkbench.Proofs.Workspace.NormalEntries
import RelayWorkbench.Proofs.Workspace.PathComponents
import RelayWorkbench.Proofs.Workspace.PathLocations
import RelayWorkbench.Proofs.Workspace.RootsApart
import RelayWorkbench.Proofs.Workspace.SchemaFileRuns
import RelayWorkbench.Proofs.Workspace.SharedLoads
import RelayWorkbench.Relay.ClientSchema
import RelayWorkbench.Relay.CodeAction
import RelayWorkbench.Relay.ComponentName
import RelayWorkbench.Relay.Formatting
import RelayWorkbench.Relay.FragmentExtraction
import RelayWorkbench.Relay.Pagination
import RelayWorkbench.Relay.Refactoring
import RelayWorkbench.Relay.Rendering
import RelayWorkbench.Relay.Request
import RelayWorkbench.Relay.SampleSchema
import RelayWorkbench.Relay.Scaffold
import RelayWorkbench.Relay.Scene
import RelayWorkbench.Text.Basic
import RelayWorkbench.Text.Blank
import RelayWorkbench.Text.Case
import RelayWorkbench.Text.CursorMarker
import RelayWorkbench.Text.Escape
import RelayWorkbench.Text.Letter
import RelayWorkbench.Text.LineIndex
import RelayWorkbench.Text.Numeral
import RelayWorkbench.Text.Quotation
import RelayWorkbench.Trap
import RelayWorkbench.Workspace.Configuration
import RelayWorkbench.Workspace.ConfigurationFile
import RelayWorkbench.Workspace.FileTree
import RelayWorkbench.Workspace.Glob
import RelayWorkbench.Workspace.SchemaCache
import RelayWorkbench.Workspace.SchemaFiles
import RelayWorkbench.Workspace.WorkspaceSchema
