import Cql.Grammar.Progress
import Cql.Parse
import Cql.Proofs.Overwritten
import Cql.Proofs.Administration
import Cql.Proofs.Properties
import Cql.Proofs.Salvaging
import Cql.Proofs.Tables
import Cql.Proofs.Commands
import Cql.Proofs.LastWins
import Cql.Proofs.TableCreation
import Cql.Proofs.Operands
import Cql.Proofs.Lossless
import Cql.Proofs.LineBreaks
import Cql.Proofs.Rendering
import Cql.Proofs.Layout
import Cql.Proofs.Explanations
import Cql.Proofs.CaseInsensitivity
import Cql.Proofs.DiagnosticSpans
import Cql.Proofs.StatementSpan
import Cql.Proofs.InteriorEnds
import Cql.Proofs.BestEffort
import Cql.Proofs.Termination
import Cql.Proofs.WrittenTypes
import Cql.Proofs.ValueRoundTrip
import Cql.Proofs.TruncatedBatches
import Cql.Proofs.OptionalSemicolons
import Cql.Proofs.WrittenNames
import Cql.Proofs.CounterChanges
import Cql.Proofs.ClauseIsolation
import Cql.Proofs.TableIsolation
import Cql.Proofs.Positions
import Cql.Proofs.Braces
import Cql.Proofs.Closers
import Cql.Proofs.PropertyBags
import Cql.Proofs.OrderClauses
import Cql.Proofs.Hashing
import Cql.Proofs.IntegerRanges
