import GoldTables.Grammar.JsonReader
import GoldTables.Grammar.LoadEvents
import GoldTables.Grammar.Write
import GoldTables.Main
import GoldTables.Parser.Evaluate
import GoldTables.Parser.Events
import GoldTables.Proofs.BatchMachine
import GoldTables.Proofs.FileRoundTrip
import GoldTables.Proofs.ParseSoundness
import GoldTables.Proofs.TrimmedParsing
import GoldTables.Tree.Evaluate
import GoldTables.Tree.Trim
import GoldTables.Proofs.LexerPlaces
import GoldTables.Proofs.TextConservation
import GoldTables.Proofs.NestedGroups
import GoldTables.Proofs.InternalErrors
import GoldTables.Proofs.Sessions
import GoldTables.Proofs.StrictLookups
import GoldTables.Proofs.SessionSafety
import GoldTables.Proofs.StackPaths
import GoldTables.Proofs.TokensInOrder
import GoldTables.Proofs.StreamingEvaluation
import GoldTables.Proofs.WrittenGrammars
import GoldTables.Proofs.DerivedFields
import GoldTables.Proofs.RecordOrder
import GoldTables.Proofs.TruncatedFiles
import GoldTables.Proofs.PartialReading
import GoldTables.Proofs.InjectedTokens
import GoldTables.Proofs.LongestMatch
import GoldTables.Proofs.ExpectedSymbols
import GoldTables.Proofs.ParsedRoots
import GoldTables.Proofs.FinalMessages
import GoldTables.Proofs.TreePositions
import GoldTables.Proofs.TokenPositions
import GoldTables.Proofs.TokenizedTexts
import GoldTables.Proofs.LoopBounds
import GoldTables.Proofs.SkippedErrors
import GoldTables.Proofs.MinimalLookahead
import GoldTables.Proofs.StartedGroups
import GoldTables.Proofs.FinishedParses
import GoldTables.Proofs.DanglingReferences
import GoldTables.Proofs.ContinuedReading
import GoldTables.Proofs.RenderedLines
import GoldTables.Proofs.ActionLookups
