import AiOrchestrator.Lib.Dict
import AiOrchestrator.Lib.DictWeights
import AiOrchestrator.Lib.Prog
import AiOrchestrator.Lib.Returns
import AiOrchestrator.Lib.Text
import AiOrchestrator.Lib.Segments
import AiOrchestrator.Lib.Words
import AiOrchestrator.Lib.Dates
import AiOrchestrator.Lib.Json
import AiOrchestrator.Lib.Sorting
import AiOrchestrator.Lib.Interleave
import AiOrchestrator.Lib.PromiseQueue
import AiOrchestrator.Lib.DepGraph
import AiOrchestrator.Lib.Layers
import AiOrchestrator.Lib.Overlays
import AiOrchestrator.Core.Backlog
import AiOrchestrator.Core.ProjectState
import AiOrchestrator.Core.Validation
import AiOrchestrator.Core.Errors
import AiOrchestrator.Core.Encoding
import AiOrchestrator.Core.Artifacts
import AiOrchestrator.Core.Evidence
import AiOrchestrator.Core.Idempotency
import AiOrchestrator.Core.ProjectConfig
import AiOrchestrator.Workflow.Policies
import AiOrchestrator.Workflow.Bookkeeping
import AiOrchestrator.Workflow.Consistency
import AiOrchestrator.Workflow.Outcomes
import AiOrchestrator.Workflow.Dependencies
import AiOrchestrator.Workflow.Attempts
import AiOrchestrator.Workflow.TaskOrder
import AiOrchestrator.Agents.MergePreview
import AiOrchestrator.Agents.Planner
import AiOrchestrator.Mutation.Pipeline
import AiOrchestrator.Mutation.Course
import AiOrchestrator.Mutation.Branch
import AiOrchestrator.State.DedupRegistry
import AiOrchestrator.State.Store
import AiOrchestrator.State.Memory
import AiOrchestrator.State.Postgres
import AiOrchestrator.State.RunStepPaths
import AiOrchestrator.State.PostgresRunSteps
import AiOrchestrator.State.Locks
import AiOrchestrator.State.QueueLeases
import AiOrchestrator.Locks.Redis
import AiOrchestrator.Locks.Contention
import AiOrchestrator.Locks.Postgres
import AiOrchestrator.Locks.Etcd
import AiOrchestrator.Locks.Scopes
import AiOrchestrator.Execution.Roles
import AiOrchestrator.Tools.LocalToolSet
import AiOrchestrator.Tools.Writes
import AiOrchestrator.Tools.WriteBudget
import AiOrchestrator.Tools.ApplyPatch
import AiOrchestrator.Execution.World
import AiOrchestrator.Execution.Recorders
import AiOrchestrator.Execution.RoleRunner
import AiOrchestrator.Execution.GitLifecycle
import AiOrchestrator.Execution.GitOutput
import AiOrchestrator.Execution.RiskyPaths
import AiOrchestrator.Execution.TaskRunner
import AiOrchestrator.Execution.Footprint
import AiOrchestrator.Execution.Observed
import AiOrchestrator.Execution.Writes
import AiOrchestrator.Execution.Gates
import AiOrchestrator.Execution.Orchestrator
import AiOrchestrator.Execution.Fencing
import AiOrchestrator.Execution.Selection
import AiOrchestrator.Execution.AttemptRuns
import AiOrchestrator.Execution.IdleCycles
import AiOrchestrator.Application.Operators
import AiOrchestrator.Execution.SideEffects
import AiOrchestrator.Execution.Reservations
import AiOrchestrator.Execution.Workspaces
import AiOrchestrator.Execution.Overlaps
import AiOrchestrator.Execution.ToolCalls
import AiOrchestrator.Execution.RoleAttempts
import AiOrchestrator.Application.Services
import AiOrchestrator.Application.Planning
import AiOrchestrator.Results.Backlog
import AiOrchestrator.Results.Scheduling
import AiOrchestrator.Results.Pipeline
import AiOrchestrator.Results.Branches
import AiOrchestrator.Results.Validation
import AiOrchestrator.Results.Dedup
import AiOrchestrator.Results.Locks
import AiOrchestrator.Results.Stores
import AiOrchestrator.Results.Runs
import AiOrchestrator.Results.GitReading
import AiOrchestrator.Results.Cycles
import AiOrchestrator.Results.Histories
import AiOrchestrator.Results.Replay
import AiOrchestrator.Results.Draining
import AiOrchestrator.Results.Lifecycle
import AiOrchestrator.Results.Budgets
import AiOrchestrator.Results.Evidence
import AiOrchestrator.Results.Tools
import AiOrchestrator.Results.Attempts
import AiOrchestrator.Results.WritePolicy
import AiOrchestrator.Results.RunSteps
import AiOrchestrator.Results.Patches
import AiOrchestrator.Results.Plans
import AiOrchestrator.Results.Replanning
import AiOrchestrator.Results.Tenancy
import AiOrchestrator.Results.Recovery
import AiOrchestrator.Results.Idempotency
import AiOrchestrator.Results.Audit
import AiOrchestrator.Results.Exports
import AiOrchestrator.Execution.Retry
import AiOrchestrator.Results.Retry
import AiOrchestrator.Results.QueueLeases
import AiOrchestrator.Results.Config
import AiOrchestrator.Execution.KeyedMutex
import AiOrchestrator.Results.KeyedMutex
import AiOrchestrator.Execution.Worktrees
import AiOrchestrator.Execution.WorktreeOwnership
import AiOrchestrator.Results.Worktrees
import AiOrchestrator.State.PostgresMigrations
import AiOrchestrator.Results.Migrations
import AiOrchestrator.Results.PolicyDecisions
import AiOrchestrator.Application.Slo
import AiOrchestrator.Results.Slo
import AiOrchestrator.Application.Rollout
import AiOrchestrator.Results.Rollout
import AiOrchestrator.Lib.Pieces
import AiOrchestrator.Dashboard.Config
import AiOrchestrator.Dashboard.Auth
import AiOrchestrator.Results.Tokens
import AiOrchestrator.Results.ApiKeys
import AiOrchestrator.Lib.Replace
import AiOrchestrator.Lib.JsonParts
import AiOrchestrator.Core.Redaction
import AiOrchestrator.Results.Redaction
import AiOrchestrator.Tools.Redaction
import AiOrchestrator.Results.ToolRedaction
import AiOrchestrator.Lib.Rollup
import AiOrchestrator.Lib.FlatObjects
import AiOrchestrator.State.Observability
import AiOrchestrator.Application.ReadModels
import AiOrchestrator.Application.DashboardQueries
import AiOrchestrator.Results.Dashboard
import AiOrchestrator.Results.MetricRollup
import AiOrchestrator.Execution.GitStatus
import AiOrchestrator.Results.ChangedFiles
