import ContextBudget.Http.Rerank
import ContextBudget.Http.Summary
import ContextBudget.Rpc.Client
import ContextBudget.Telemetry.Web
import ContextBudget.Proofs.Prune.Cuts
import ContextBudget.Proofs.Prune.LineText
import ContextBudget.Proofs.Prune.Outline
import ContextBudget.Proofs.Prune.Contract
import ContextBudget.Proofs.Prune.Answer
import ContextBudget.Proofs.Prune.Ranges
import ContextBudget.Proofs.Prune.Recovery
import ContextBudget.Proofs.Telemetry.Buffers
import ContextBudget.Proofs.Telemetry.History
import ContextBudget.Proofs.Telemetry.Isolation
import ContextBudget.Proofs.Telemetry.Ledger
import ContextBudget.Proofs.Telemetry.Flow
import ContextBudget.Proofs.Telemetry.Conservation
import ContextBudget.Proofs.Telemetry.Replay
import ContextBudget.Proofs.Run.Trail
import ContextBudget.Proofs.Run.Accounting
import ContextBudget.Proofs.Run.Redaction
import ContextBudget.Proofs.Run.History
import ContextBudget.Proofs.Catalog
import ContextBudget.Proofs.Run.LargerModel
import ContextBudget.Proofs.Run.Failures
import ContextBudget.Proofs.Run.Integrity
import ContextBudget.Proofs.Run.Savings
import ContextBudget.Proofs.Run.Reports
import ContextBudget.Proofs.Run.LastResort
import ContextBudget.Proofs.Run.Handles
import ContextBudget.Proofs.Prune.Ledger
import ContextBudget.Proofs.Run.Recovery
import ContextBudget.Proofs.Run.EnoughRoom
import ContextBudget.Proofs.Rpc.Surface
import ContextBudget.Proofs.Json.Records
import ContextBudget.Proofs.Json.Settle
import ContextBudget.Proofs.Json.Texts
import ContextBudget.Proofs.Prune.Typed
import ContextBudget.Proofs.Rpc.Remote
import ContextBudget.Proofs.Telemetry.Alike
import ContextBudget.Proofs.Telemetry.Projection
import ContextBudget.Proofs.Telemetry.Orderly
import ContextBudget.Proofs.Telemetry.Arrivals
import ContextBudget.Proofs.Telemetry.Pressure
import ContextBudget.Proofs.Telemetry.Reading
import ContextBudget.Proofs.Number.Order
import ContextBudget.Proofs.Prune.Verdict
import ContextBudget.Proofs.Prune.Greedy
import ContextBudget.Proofs.Prune.Redundant
import ContextBudget.Proofs.Prune.Bounds
import ContextBudget.Proofs.Prune.LocalScores
import ContextBudget.Proofs.Number.Quotient
import ContextBudget.Proofs.Prune.Guard
import ContextBudget.Proofs.Prune.Reasons
import ContextBudget.Proofs.Prune.Numbered
import ContextBudget.Proofs.Prune.Cached
import ContextBudget.Proofs.Masking.Fates
import ContextBudget.Proofs.Masking.Retention
import ContextBudget.Proofs.Compaction.Splice
import ContextBudget.Proofs.Compaction.Tail
import ContextBudget.Proofs.Compaction.Summaries
import ContextBudget.Proofs.Run.Questions
import ContextBudget.Proofs.Run.Telescope
import ContextBudget.Proofs.Catalog.Choice
import ContextBudget.Proofs.Http.Retry
import ContextBudget.Proofs.Prune.Store
import ContextBudget.Proofs.Rpc.FailOpen
import ContextBudget.Proofs.Run.Words
import ContextBudget.Proofs.Telemetry.Wire
import ContextBudget.Proofs.Http.Attempts
import ContextBudget.Proofs.Masking.Index
import ContextBudget.Proofs.Http.LineScores
