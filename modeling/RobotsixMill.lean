import RobotsixMill.Lib.Runs
import RobotsixMill.Lib.SharedCell
import RobotsixMill.Lib.Table
import RobotsixMill.Lib.MinQueue
import RobotsixMill.Lib.FirstMatch
import RobotsixMill.Lib.PyText
import RobotsixMill.Lib.QuotedSpans
import RobotsixMill.Lib.Regex
import RobotsixMill.Lib.Blake2b
import RobotsixMill.Lib.HashChain
import RobotsixMill.Core.States
import RobotsixMill.Core.Models
import RobotsixMill.Core.EventHash
import RobotsixMill.Core.Workspace
import RobotsixMill.Core.Settings
import RobotsixMill.Service.ImplementGuard
import RobotsixMill.Service.Store
import RobotsixMill.Service.Session
import RobotsixMill.Service.Lifecycle
import RobotsixMill.Service.Ops
import RobotsixMill.Service.Migrate
import RobotsixMill.Service.Runs
import RobotsixMill.Service.Refinement
import RobotsixMill.Service.History
import RobotsixMill.Service.PauseResume
import RobotsixMill.Service.BlockBookkeeping
import RobotsixMill.Service.ChainIntegrity
import RobotsixMill.Service.ConcurrentWriters
import RobotsixMill.Lib.Ancestors
import RobotsixMill.Service.CommentPurge
import RobotsixMill.Service.Cascade
import RobotsixMill.Service.Completions
import RobotsixMill.Service.SubtreeMigration
import RobotsixMill.Service.Threads
import RobotsixMill.Runtime.Gate
import RobotsixMill.Runtime.Worker
import RobotsixMill.Runtime.QueueDedup
import RobotsixMill.Runtime.StageRetry
import RobotsixMill.Lib.GuardChain
import RobotsixMill.Stages.SpawnState
import RobotsixMill.Stages.Preflight
import RobotsixMill.Stages.JustifiedResume
import RobotsixMill.Service.MigrationFidelity
import RobotsixMill.Service.OpenQuestions
import RobotsixMill.Lib.Acyclic
import RobotsixMill.Service.Dependencies
import RobotsixMill.Service.DependencyGate
import RobotsixMill.Runtime.Delivery
import RobotsixMill.Runtime.Progress
import RobotsixMill.Stages.Base
import RobotsixMill.Runtime.OutcomeApplication
import RobotsixMill.Stages.CiFix
import RobotsixMill.Agents.EpicBreakdown
import RobotsixMill.Agents.BumpChildren
import RobotsixMill.Agents.PassRunner
import RobotsixMill.Agents.PinBump
import RobotsixMill.Agents.PinRevision
import RobotsixMill.Agents.PlanSoundness
import RobotsixMill.Lib.Emissions
import RobotsixMill.Stages.MergePoll
import RobotsixMill.Stages.Rebase
import RobotsixMill.Stages.MergeLoop
import RobotsixMill.Lib.CommitDag
import RobotsixMill.Lib.DelimitedText
import RobotsixMill.Scm.Git
import RobotsixMill.Scm.PostPush
import RobotsixMill.Scm.RebaseIntegrity
import RobotsixMill.Scm.HostPush
import RobotsixMill.Lib.Glob
import RobotsixMill.Lib.Paged
import RobotsixMill.Lib.PyJson
import RobotsixMill.Forge.Http
import RobotsixMill.Forge.Pagination
import RobotsixMill.Stages.AutoMergeEligible
import RobotsixMill.Lib.Latest
import RobotsixMill.Forge.CheckStatus
import RobotsixMill.Stages.ReviewRevision
import RobotsixMill.Stages.HumanApproval
import RobotsixMill.Stages.ImplementLoop
import RobotsixMill.Stages.MultiDelivery
import RobotsixMill.Stages.MultiRepo
import RobotsixMill.Stages.MergeStage
import RobotsixMill.Lib.Streak
import RobotsixMill.Stages.MergeAttempt
import RobotsixMill.Stages.CounterFiles
import RobotsixMill.Stages.PollCounters
import RobotsixMill.Stages.OperatorAnswers
import RobotsixMill.Stages.Pause
import RobotsixMill.Stages.PollCeilings
import RobotsixMill.Lib.MovingValue
import RobotsixMill.Stages.MergedHead
import RobotsixMill.Stages.RebaseOrigin
import RobotsixMill.Forge.Reviews
import RobotsixMill.Stages.ApprovedDiff
import RobotsixMill.Lib.Occurrences
import RobotsixMill.Lib.Utf8
import RobotsixMill.Agents.FileTools
import RobotsixMill.Agents.KeptEdits
import RobotsixMill.Agents.CiAutoClose
import RobotsixMill.Lib.BoundedLog
import RobotsixMill.Runtime.RunRegistry
import RobotsixMill.Runtime.PollLoops
import RobotsixMill.Runtime.Cadence
import RobotsixMill.Stages.ReviewAsks
import RobotsixMill.Stages.ReviewPins
import RobotsixMill.Stages.StageCache
import RobotsixMill.Stages.Review
import RobotsixMill.Stages.ReviewRouting
import RobotsixMill.Stages.HardViolations
import RobotsixMill.Stages.RoutedAsks
import RobotsixMill.Stages.CachedVerdicts
import RobotsixMill.Lib.Symlinks
import RobotsixMill.Agents.WriteConfinement
import RobotsixMill.Agents.TimeoutEscalation
import RobotsixMill.Agents.EscalationTargets
import RobotsixMill.Service.MigrationSteps
import RobotsixMill.Agents.DataDirGc
import RobotsixMill.Agents.FinishedTickets
import RobotsixMill.Agents.LiveData
import RobotsixMill.Agents.OrphanedPrs
import RobotsixMill.Agents.AutoResume
import RobotsixMill.Agents.ResumeEvidence
import RobotsixMill.Agents.BoundedResumes
import RobotsixMill.Stages.EditClaims
import RobotsixMill.Stages.NoChange
import RobotsixMill.Stages.EmptyDiffEvidence
import RobotsixMill.Lib.Shlex
import RobotsixMill.Lib.ShellText
import RobotsixMill.Agents.FullSuiteGuard
import RobotsixMill.Agents.WholeSuiteRuns
import RobotsixMill.Runtime.DrainSwap
import RobotsixMill.Runtime.PassLoop
import RobotsixMill.Runtime.CiLogExcerpt
import RobotsixMill.Lib.TimeWindow
import RobotsixMill.Runtime.CiMonitor
import RobotsixMill.Runtime.CiReports
import RobotsixMill.Stages.SpawnBudget
import RobotsixMill.Stages.ConvergedRounds
import RobotsixMill.Lib.Kosaraju
import RobotsixMill.Agents.Deadlocks
import RobotsixMill.Lib.TextLines
import RobotsixMill.Stages.FinalizedPass
import RobotsixMill.Stages.StallLedger
import RobotsixMill.Stages.ActionRefs
import RobotsixMill.Stages.AdvisoryBlock
import RobotsixMill.Stages.DiffText
import RobotsixMill.Stages.AddedPins
import RobotsixMill.Core.TextUtils
import RobotsixMill.Service.ArchivePurge
import RobotsixMill.Lib.Descent
import RobotsixMill.Service.SubtreeCollection
import RobotsixMill.Sandbox.Slots
import RobotsixMill.Runtime.QueueAccounting
import RobotsixMill.Lib.TopologicalOrder
import RobotsixMill.Deps.InternalGraph
import RobotsixMill.Service.RedraftFaults
import RobotsixMill.Core.Dedup
import RobotsixMill.Core.DiffContext
import RobotsixMill.Service.CascadeMoves
import RobotsixMill.Deps.CoherentResolver
import RobotsixMill.Core.Duration
import RobotsixMill.Lib.Intervals
import RobotsixMill.Agents.ReadBounds
import RobotsixMill.Forge.LogUtils
import RobotsixMill.Forge.ReducedLog
import RobotsixMill.Core.ToolWrappers
import RobotsixMill.Agents.ResolutionFailures
import RobotsixMill.Lib.Fleet
import RobotsixMill.Runtime.PeriodicSupervisor
import RobotsixMill.Notify.Fleet
import RobotsixMill.Service.Children
import RobotsixMill.Lib.Quota
import RobotsixMill.Runtime.EpicChildren
import RobotsixMill.Runtime.EpicReeval
