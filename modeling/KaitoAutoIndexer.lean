import KaitoAutoIndexer.Lib.Prog
import KaitoAutoIndexer.Lib.Interleave
import KaitoAutoIndexer.Lib.Keyed
import KaitoAutoIndexer.Lib.Upsert
import KaitoAutoIndexer.Lib.Regex
import KaitoAutoIndexer.Lib.Batches
import KaitoAutoIndexer.Lib.Separated
import KaitoAutoIndexer.Types
import KaitoAutoIndexer.Conditions
import KaitoAutoIndexer.Rag
import KaitoAutoIndexer.Cluster
import KaitoAutoIndexer.Controller
import KaitoAutoIndexer.Text
import KaitoAutoIndexer.JobClient
import KaitoAutoIndexer.Git
import KaitoAutoIndexer.Kusto
import KaitoAutoIndexer.Static
import KaitoAutoIndexer.Job
import KaitoAutoIndexer.Detector
import KaitoAutoIndexer.ControllerSpec
import KaitoAutoIndexer.JobStatus
import KaitoAutoIndexer.Running
import KaitoAutoIndexer.ControllerCalls
import KaitoAutoIndexer.Ownership
import KaitoAutoIndexer.FullPath
import KaitoAutoIndexer.Remediation
import KaitoAutoIndexer.GitCalls
import KaitoAutoIndexer.GitSpec
import KaitoAutoIndexer.FullIndex
import KaitoAutoIndexer.Lookups
import KaitoAutoIndexer.Incremental
import KaitoAutoIndexer.System
import KaitoAutoIndexer.ControllerSteps
import KaitoAutoIndexer.DetectorSteps
import KaitoAutoIndexer.JobSteps
import KaitoAutoIndexer.SystemSteps
import KaitoAutoIndexer.OnlyAuto
import KaitoAutoIndexer.Finalizer
import KaitoAutoIndexer.OneRemediation
import KaitoAutoIndexer.SuspendFlag
import KaitoAutoIndexer.AbsentPolicy
import KaitoAutoIndexer.RunCounters
import KaitoAutoIndexer.RunOutcome
import KaitoAutoIndexer.FinalConditions
import KaitoAutoIndexer.StatusUpdates
import KaitoAutoIndexer.StaticMirror
import KaitoAutoIndexer.ConditionLists
import KaitoAutoIndexer.NothingLost
import KaitoAutoIndexer.Children
import KaitoAutoIndexer.SharedAccounts
import KaitoAutoIndexer.CronJobs
import KaitoAutoIndexer.ScheduledDrift
import KaitoAutoIndexer.SameIndex
import KaitoAutoIndexer.DriftMark
import KaitoAutoIndexer.StaleVerdict
import KaitoAutoIndexer.LiveJobs
import KaitoAutoIndexer.Windows
import KaitoAutoIndexer.Checkouts
import KaitoAutoIndexer.Recovery
import KaitoAutoIndexer.DiffRuns
import KaitoAutoIndexer.FilterEdits
import KaitoAutoIndexer.Phases
import KaitoAutoIndexer.Owners
import KaitoAutoIndexer.ComingToRest
import KaitoAutoIndexer.Repairs
import KaitoAutoIndexer.Quiescence
import KaitoAutoIndexer.Alarms
import KaitoAutoIndexer.LostUpdates
import KaitoAutoIndexer.Fleet
import KaitoAutoIndexer.Retries
import KaitoAutoIndexer.OneTimeLife
import KaitoAutoIndexer.OneTimeRuns
import KaitoAutoIndexer.Admission
import KaitoAutoIndexer.KustoQueries
import KaitoAutoIndexer.KustoHosts
import KaitoAutoIndexer.Manifests
import KaitoAutoIndexer.Tokens
import KaitoAutoIndexer.Schedules
import KaitoAutoIndexer.PathPatterns
import KaitoAutoIndexer.ContentHandlers
import KaitoAutoIndexer.TextDecoding
import KaitoAutoIndexer.HandlerChoice
import KaitoAutoIndexer.PdfText
import KaitoAutoIndexer.BatchedIndexing
