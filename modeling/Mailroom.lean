import Mailroom.Main
import Mailroom.Proofs.Accumulator
import Mailroom.Proofs.BareImages
import Mailroom.Proofs.BulkWrites
import Mailroom.Proofs.CanonicalText
import Mailroom.Proofs.CloseMatches
import Mailroom.Proofs.Continuation
import Mailroom.Proofs.DisassemblyReports
import Mailroom.Proofs.DistinctNames
import Mailroom.Proofs.EarlyInput
import Mailroom.Proofs.EchoLoop
import Mailroom.Proofs.ExecutionReports
import Mailroom.Proofs.Fields
import Mailroom.Proofs.Folded
import Mailroom.Proofs.Folding
import Mailroom.Proofs.ForwardPrograms
import Mailroom.Proofs.Generation
import Mailroom.Proofs.Histories
import Mailroom.Proofs.Images
import Mailroom.Proofs.InBasket
import Mailroom.Proofs.Jobs
import Mailroom.Proofs.Labels
import Mailroom.Proofs.Layouts
import Mailroom.Proofs.LineEnds
import Mailroom.Proofs.LineGrammar
import Mailroom.Proofs.Loading
import Mailroom.Proofs.MatchingBlocks
import Mailroom.Proofs.Orders
import Mailroom.Proofs.OutBasket
import Mailroom.Proofs.OutputFiles
import Mailroom.Proofs.Reassembly
import Mailroom.Proofs.References
import Mailroom.Proofs.Relocation
import Mailroom.Proofs.Renaming
import Mailroom.Proofs.RepeatedLabels
import Mailroom.Proofs.Restating
import Mailroom.Proofs.Runs
import Mailroom.Proofs.SameLabels
import Mailroom.Proofs.SameStatements
import Mailroom.Proofs.ShownWords
import Mailroom.Proofs.Simulation
import Mailroom.Proofs.SourceForm
import Mailroom.Proofs.SourceRun
import Mailroom.Proofs.Statements
import Mailroom.Proofs.Stepping
import Mailroom.Proofs.StoredNumbers
import Mailroom.Proofs.Strictness
import Mailroom.Proofs.Suggestions
import Mailroom.Proofs.SymbolFiles
import Mailroom.Proofs.SymbolTables
import Mailroom.Proofs.Tasks
import Mailroom.Proofs.TextGrammar
import Mailroom.Proofs.Transition
