import LispReader.Arena.Heap
import LispReader.Main
import LispReader.Session.Registry
import LispReader.Proofs.TokenStream
import LispReader.Proofs.ChunkInvariance
import LispReader.Proofs.RecursiveDescent
import LispReader.Proofs.Descent
import LispReader.Proofs.FeedTokens
import LispReader.Proofs.Conversion
import LispReader.Proofs.Reading
import LispReader.Proofs.Lexemes
import LispReader.Proofs.Acceptance
import LispReader.Proofs.NumberText
import LispReader.Proofs.Utf8Repair
import LispReader.Proofs.Echo
import LispReader.Proofs.RenderedForms
import LispReader.Proofs.RoundTrip
import LispReader.Proofs.Reread
import LispReader.Proofs.LexicalGrammar
import LispReader.Proofs.BatchSize
import LispReader.Proofs.Outline
import LispReader.Proofs.StructuralErrors
import LispReader.Proofs.LookAhead
import LispReader.Proofs.MoreInput
import LispReader.Proofs.UnreadableForms
import LispReader.Proofs.HeapRuns
import LispReader.Proofs.Layout
import LispReader.Proofs.Comparison
import LispReader.Proofs.Relayout
import LispReader.Proofs.Rerender
import LispReader.Proofs.MoreRoom
import LispReader.Proofs.Displacement
import LispReader.Proofs.Concatenation
import LispReader.Proofs.Interning
import LispReader.Proofs.RegistryHistory
import LispReader.Proofs.SymbolNumbers
import LispReader.Proofs.ScanCalls
import LispReader.Proofs.FeedCursor
import LispReader.Proofs.Tiling
import LispReader.Proofs.SettledTokens
import LispReader.Proofs.Placement
import LispReader.Proofs.ArenaCost
import LispReader.Proofs.ReportOrder
import LispReader.Proofs.SpanNesting
import LispReader.Proofs.StringLiterals
import LispReader.Proofs.TextSources
import LispReader.Proofs.ListNesting
import LispReader.Proofs.LinePositions
import LispReader.Proofs.SafeScan
import LispReader.Proofs.SafeRead
import LispReader.Proofs.SafeReports
import LispReader.Proofs.WalkOrder
import LispReader.Proofs.WindowQueue
import LispReader.Proofs.IntegerLiterals
import LispReader.Proofs.ExactPositions
import LispReader.Proofs.LoadedSettings
