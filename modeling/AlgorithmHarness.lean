import AlgorithmHarness.Core.Transition
import AlgorithmHarness.TaskService.Record
import AlgorithmHarness.TaskService.Run
import AlgorithmHarness.TaskService.Interleaving
import AlgorithmHarness.TaskService.Lifecycle
import AlgorithmHarness.TaskService.Classification
import AlgorithmHarness.TaskService.ServiceRecord
import AlgorithmHarness.TaskService.ResultRetention
import AlgorithmHarness.TaskService.CancelDelivery
import AlgorithmHarness.Core.Sequence
import AlgorithmHarness.TaskService.EventHistory
import AlgorithmHarness.TaskService.ResumeLatch
import AlgorithmHarness.Core.Json
import AlgorithmHarness.TaskManager.Rows
import AlgorithmHarness.TaskManager.Operations
import AlgorithmHarness.TaskManager.Transaction
import AlgorithmHarness.TaskManager.Terminal
import AlgorithmHarness.TaskManager.Execution
import AlgorithmHarness.Core.KeyedRows
import AlgorithmHarness.Evaluation.Ledger
import AlgorithmHarness.Evaluation.SpendLedger
import AlgorithmHarness.Evaluation.Fencing
import AlgorithmHarness.Evaluation.Checkpoint
import AlgorithmHarness.Evaluation.Recovery
import AlgorithmHarness.Evaluation.StaleCancel
import AlgorithmHarness.TaskManager.AdmissionCap
import AlgorithmHarness.Core.Table
import AlgorithmHarness.Files.Store
import AlgorithmHarness.Files.SnapshotRegistry
import AlgorithmHarness.Files.SourceUploads
import AlgorithmHarness.Files.Publication
import AlgorithmHarness.Files.Agreement
import AlgorithmHarness.Files.ImportJob
import AlgorithmHarness.Files.ImportResume
import AlgorithmHarness.Core.WorkPool
import AlgorithmHarness.Runners.Experiment
import AlgorithmHarness.Runners.Combinations
import AlgorithmHarness.Runners.ABTest
import AlgorithmHarness.Runners.ABCompletion
import AlgorithmHarness.Core.Pattern
import AlgorithmHarness.Core.Substitution
import AlgorithmHarness.Redaction.Secrets
import AlgorithmHarness.Redaction.Scan
import AlgorithmHarness.Redaction.Placeholder
import AlgorithmHarness.Redaction.Settled
import AlgorithmHarness.Auth.Rotation
import AlgorithmHarness.Incremental.History
import AlgorithmHarness.Harness.Accountants
import AlgorithmHarness.Harness.SequentialRun
import AlgorithmHarness.Harness.RunBudget
import AlgorithmHarness.Harness.Problem
import AlgorithmHarness.Harness.Sandbox
import AlgorithmHarness.Strategies.Prompt
import AlgorithmHarness.Incremental.Fingerprint
import AlgorithmHarness.Incremental.Soundness
import AlgorithmHarness.Incremental.Reuse
import AlgorithmHarness.Incremental.Completion
import AlgorithmHarness.Browser.HttpClient
import AlgorithmHarness.Browser.SessionIsolation
import AlgorithmHarness.Harness.TaskRun
import AlgorithmHarness.Harness.TaskBudget
import AlgorithmHarness.Harness.TaskCaps
import AlgorithmHarness.Auth.Quota
import AlgorithmHarness.Core.IsoFormat
import AlgorithmHarness.Core.Grouping
import AlgorithmHarness.Costs.SpendRows
import AlgorithmHarness.Costs.Views
import AlgorithmHarness.TaskManager.Compensation
import AlgorithmHarness.Core.Watermark
import AlgorithmHarness.Monitoring.Store
import AlgorithmHarness.Monitoring.Coverage
import AlgorithmHarness.Core.Base64
import AlgorithmHarness.Core.Keyset
import AlgorithmHarness.Notifications.Service
import AlgorithmHarness.Notifications.Pagination
import AlgorithmHarness.Core.Sql
import AlgorithmHarness.Results.Service
import AlgorithmHarness.Results.FilterAgreement
import AlgorithmHarness.CostAlerts.Dispatcher
import AlgorithmHarness.CostAlerts.AtMostOnce
import AlgorithmHarness.RunAlerts.StateFile
import AlgorithmHarness.RunAlerts.Manager
import AlgorithmHarness.RunAlerts.Thresholds
import AlgorithmHarness.Core.Binary64
import AlgorithmHarness.Core.Matching
import AlgorithmHarness.Harness.Comparator
import AlgorithmHarness.Harness.UnorderedComparison
import AlgorithmHarness.Harness.Verdicts
import AlgorithmHarness.Browser.ObserverFreshness
import AlgorithmHarness.Browser.ObserverProgress
import AlgorithmHarness.Strategies.Extraction
import AlgorithmHarness.Strategies.RoundPrompts
import AlgorithmHarness.Strategies.Session
import AlgorithmHarness.Strategies.Loops
import AlgorithmHarness.Strategies.TreeOfThoughts
import AlgorithmHarness.Strategies.Execution
import AlgorithmHarness.Strategies.BudgetGate
import AlgorithmHarness.Strategies.HiddenTests
import AlgorithmHarness.Strategies.Testing
import AlgorithmHarness.Strategies.VerdictLaw
import AlgorithmHarness.Strategies.OneAttempt
import AlgorithmHarness.Runners.Assignment
import AlgorithmHarness.Analysis.Pareto
import AlgorithmHarness.Strategies.TreeBounds
import AlgorithmHarness.Strategies.SearchOrder
import AlgorithmHarness.LlmClient.Accounting
import AlgorithmHarness.Analysis.CostOptimizer
import AlgorithmHarness.Harness.EstimateFields
import AlgorithmHarness.Incremental.MergedReport
import AlgorithmHarness.Core.Lines
import AlgorithmHarness.Core.Utf8
import AlgorithmHarness.Harness.ResultChannel
import AlgorithmHarness.Harness.ImportStatements
import AlgorithmHarness.Strategies.Truncation
import AlgorithmHarness.Evaluation.FailureMirror
import AlgorithmHarness.Strategies.TracePricing
import AlgorithmHarness.Costs.Backfill
import AlgorithmHarness.Files.DatasetMerge
import AlgorithmHarness.Importers.LocalJson
import AlgorithmHarness.Tags.Idempotence
import AlgorithmHarness.TaskService.EventCounts
import AlgorithmHarness.Core.Eviction
import AlgorithmHarness.LlmClient.ResponseCache
import AlgorithmHarness.Harness.BoundedRun
import AlgorithmHarness.Progress.Feed
import AlgorithmHarness.Notifications.ClientStore
import AlgorithmHarness.Redaction.Headers
import AlgorithmHarness.Auth.CsrfGate
import AlgorithmHarness.Browser.CsrfToken
import AlgorithmHarness.Core.FixedWindow
import AlgorithmHarness.Auth.RateLimit
