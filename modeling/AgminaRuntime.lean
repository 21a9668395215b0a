import AgminaRuntime.AuditTrail
import AgminaRuntime.BatchReconciliation
import AgminaRuntime.BudgetCeiling
import AgminaRuntime.CacheRefinement
import AgminaRuntime.CacheSoundness
import AgminaRuntime.CanonicalForm
import AgminaRuntime.ChatExchange
import AgminaRuntime.ChatPayload
import AgminaRuntime.ChatStream
import AgminaRuntime.ChatUsage
import AgminaRuntime.CleanShutdown
import AgminaRuntime.ConsumptionFence
import AgminaRuntime.DeliveryFence
import AgminaRuntime.DeliveryWindow
import AgminaRuntime.DependencyGate
import AgminaRuntime.DryRun
import AgminaRuntime.EvidenceLineage
import AgminaRuntime.FailedCalls
import AgminaRuntime.HttpBackend
import AgminaRuntime.HttpExchange
import AgminaRuntime.JobLifecycle
import AgminaRuntime.JournalReadable
import AgminaRuntime.LatestReplacement
import AgminaRuntime.LedgerStatements
import AgminaRuntime.LoadCompletion
import AgminaRuntime.LoadPlan
import AgminaRuntime.LoadRun
import AgminaRuntime.NativePackets
import AgminaRuntime.NearestRank
import AgminaRuntime.QueueBounds
import AgminaRuntime.ReceiptTimelines
import AgminaRuntime.ReconcileFile
import AgminaRuntime.RecordImport
import AgminaRuntime.ReplayCausality
import AgminaRuntime.ReplayPrediction
import AgminaRuntime.ReplaySlots
import AgminaRuntime.ReportCounts
import AgminaRuntime.RestartableRecovery
import AgminaRuntime.SendFence
import AgminaRuntime.SessionGenerations
import AgminaRuntime.SettledCharges
import AgminaRuntime.SingleDispatch
import AgminaRuntime.SlotAccounting
import AgminaRuntime.StreamCompleteness
import AgminaRuntime.StreamCuts
import AgminaRuntime.StreamEquivalence
import AgminaRuntime.SubmissionAtomicity
import AgminaRuntime.Tallies
import AgminaRuntime.Telemetry
import AgminaRuntime.TensorExchange
import AgminaRuntime.TensorPayload
import AgminaRuntime.TextLines
import AgminaRuntime.TimelineRuns
import AgminaRuntime.TimelineSteps
import AgminaRuntime.UnconfirmedPools
import AgminaRuntime.UnsentRequests
import AgminaRuntime.Utf8Decoding
import AgminaRuntime.WorkerExchange
