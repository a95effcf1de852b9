import FinestVX.Lib.Checked
import FinestVX.Lib.Raising
import FinestVX.Lib.Decimal
import FinestVX.Lib.Rounding
import FinestVX.Lib.Text
import FinestVX.Lib.IntegerText
import FinestVX.Lib.Xml
import FinestVX.Core.Calendar
import FinestVX.Lib.Collections
import FinestVX.Lib.Forest
import FinestVX.Lib.Paging
import FinestVX.Lib.Handles
import FinestVX.Lib.Quoting
import FinestVX.Lib.Separators
import FinestVX.Lib.Holdings
import FinestVX.Lib.JsonText
import FinestVX.Lib.Cancellation
import FinestVX.Lib.Csv
import FinestVX.Lib.DecimalText
import FinestVX.Core.Timestamps
import FinestVX.Core.Platform
import FinestVX.Core.Models
import FinestVX.Core.Balance
import FinestVX.Core.Books
import FinestVX.Core.Cycles
import FinestVX.Core.Charts
import FinestVX.Core.ChartOrder
import FinestVX.Core.Reference
import FinestVX.Core.ZeroSum
import FinestVX.Core.Serialization
import FinestVX.Core.Balances
import FinestVX.Core.JsonMappings
import FinestVX.Core.Periods
import FinestVX.Core.Texts
import FinestVX.Core.Escapes
import FinestVX.Persistence.Sql
import FinestVX.Persistence.Schema
import FinestVX.Persistence.Store
import FinestVX.Lib.Transition
import FinestVX.Lib.Unwinding
import FinestVX.Lib.Queries
import FinestVX.Lib.Serial
import FinestVX.Persistence.Calls
import FinestVX.Persistence.Ledger
import FinestVX.Persistence.Loading
import FinestVX.Persistence.RoundTrip
import FinestVX.Persistence.Isolation
import FinestVX.Persistence.Constraints
import FinestVX.Persistence.Readable
import FinestVX.Persistence.Chronology
import FinestVX.Persistence.Admission
import FinestVX.Persistence.AppendErrors
import FinestVX.Persistence.LoadErrors
import FinestVX.Persistence.Growth
import FinestVX.Persistence.Convergence
import FinestVX.Persistence.Serializability
import FinestVX.Persistence.Reversal
import FinestVX.Persistence.StandingBalances
import FinestVX.Persistence.Aggregate
import FinestVX.Persistence.Audit
import FinestVX.Persistence.RowKeys
import FinestVX.Persistence.ReaderPool
import FinestVX.Persistence.AuditPages
import FinestVX.Persistence.TornReads
import FinestVX.Persistence.Attribution
import FinestVX.Persistence.ReadReplica
import FinestVX.Persistence.ReversalRace
import FinestVX.Lib.Effects
import FinestVX.Lib.FileSystem
import FinestVX.Persistence.Snapshot
import FinestVX.Persistence.SnapshotFrame
import FinestVX.Persistence.SnapshotDelivery
import FinestVX.Runtime.WriterQueue
import FinestVX.Runtime.Sessions
import FinestVX.Runtime.FailedWrites
import FinestVX.Runtime.Shutdown
import FinestVX.Validation.Reports
import FinestVX.Validation.Diagnostics
import FinestVX.Validation.Conversion
import FinestVX.Legislation.Packs
import FinestVX.Legislation.RoundEur
import FinestVX.Export.LedgerXml
import FinestVX.Export.XmlRoundTrip
import FinestVX.Export.LedgerJson
import FinestVX.Export.LedgerCsv
import FinestVX.Export.Migration
import FinestVX.Export.Reexport
import FinestVX.Export.ImportErrors
import FinestVX.Export.Pdf
import FinestVX.Gateway.Service
import FinestVX.Runtime.Submissions
import FinestVX.Gateway.Posting
import FinestVX.Gateway.Verdicts
import FinestVX.Gateway.Preflight
import FinestVX.Gateway.ReversalReferences
import FinestVX.Runtime.BookCreation
import FinestVX.Lib.Paths
import FinestVX.Lib.Quantize
import FinestVX.Runtime.DatabasePaths
import FinestVX.Runtime.MultiBook
import FinestVX.Runtime.OpenBooks
