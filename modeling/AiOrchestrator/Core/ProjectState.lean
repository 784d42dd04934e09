import AiOrchestrator.Core.Backlog

/-!
# The project state

The one document of the system: every run loads it, changes its copy and writes it
back (`packages/core/src/project-state.ts` and the record types it is made of).

The types follow the interfaces field by field. A union of string literals is an
inductive type, an optional field an `Option`, a `Record` a dictionary with
distinct keys, and a number of the schema's non-negative integers a `Nat`. Time
stamps stay texts: they are compared, parsed and stored as texts.
-/

namespace AiOrchestrator

/-! ### Roles, failures, decisions -/

inductive AgentRoleName
  | bootstrapAnalyst | architect | planner | releaseAuditor | stateSteward | integrationManager
  | taskManager | promptEngineer | coder | reviewer | tester | docsWriter
deriving DecidableEq, Repr

/-- The role's name in the documents and messages. -/
def AgentRoleName.text : AgentRoleName → String
  | .bootstrapAnalyst => "bootstrap_analyst"
  | .architect => "architect"
  | .planner => "planner"
  | .releaseAuditor => "release_auditor"
  | .stateSteward => "state_steward"
  | .integrationManager => "integration_manager"
  | .taskManager => "task_manager"
  | .promptEngineer => "prompt_engineer"
  | .coder => "coder"
  | .reviewer => "reviewer"
  | .tester => "tester"
  | .docsWriter => "docs_writer"

inductive FailureStatus
  | retryable | deadLettered | resumed | replayed
deriving DecidableEq, Repr

def FailureStatus.text : FailureStatus → String
  | .retryable => "retryable"
  | .deadLettered => "dead_lettered"
  | .resumed => "resumed"
  | .replayed => "replayed"

structure FailureRecord where
  id : String
  taskId : String
  role : AgentRoleName
  reason : String
  symptoms : List String
  badPatterns : List String
  retrySuggested : Bool
  status : Option FailureStatus
  checkpointRunId : Option String
  checkpointStepId : Option String
  deadLetteredAt : Option String
  resumedAt : Option String
  replayedAt : Option String
  createdAt : String
deriving DecidableEq

/-- `failure.status ?? 'retryable'`. -/
def FailureRecord.statusOrDefault (failure : FailureRecord) : FailureStatus :=
  failure.status.getD .retryable

structure DecisionLogItem where
  id : String
  title : String
  decision : String
  rationale : String
  affectedAreas : List String
  createdAt : String
deriving DecidableEq

/-! ### Artifacts and approvals -/

inductive ArtifactType
  | bootstrapAnalysis | architectureAnalysis | documentation | releaseAssessment
  | stateIntegrityReport | integrationExport | optimizedPrompt | runSummary | backlogExport
  | plan | testPlan | report | gitLifecycle
deriving DecidableEq, Repr

def ArtifactType.text : ArtifactType → String
  | .bootstrapAnalysis => "bootstrap_analysis"
  | .architectureAnalysis => "architecture_analysis"
  | .documentation => "documentation"
  | .releaseAssessment => "release_assessment"
  | .stateIntegrityReport => "state_integrity_report"
  | .integrationExport => "integration_export"
  | .optimizedPrompt => "optimized_prompt"
  | .runSummary => "run_summary"
  | .backlogExport => "backlog_export"
  | .plan => "plan"
  | .testPlan => "test_plan"
  | .report => "report"
  | .gitLifecycle => "git_lifecycle"

structure ArtifactRecord where
  id : String
  type : ArtifactType
  title : String
  location : Option String
  metadata : Record String
  createdAt : String
deriving DecidableEq

inductive ApprovalRequestedAction
  | gitPush | prDraft | dbMigration | fileDelete | apiBreakingChange | dependencyBump
  | securityAuthChange | productionConfigChange | bulkFileChange
deriving DecidableEq, Repr

def ApprovalRequestedAction.text : ApprovalRequestedAction → String
  | .gitPush => "git_push"
  | .prDraft => "pr_draft"
  | .dbMigration => "db_migration"
  | .fileDelete => "file_delete"
  | .apiBreakingChange => "api_breaking_change"
  | .dependencyBump => "dependency_bump"
  | .securityAuthChange => "security_auth_change"
  | .productionConfigChange => "production_config_change"
  | .bulkFileChange => "bulk_file_change"

inductive ApprovalStatus
  | pending | approved | rejected | resumed | completed
deriving DecidableEq, Repr

def ApprovalStatus.text : ApprovalStatus → String
  | .pending => "pending"
  | .approved => "approved"
  | .rejected => "rejected"
  | .resumed => "resumed"
  | .completed => "completed"

inductive ApprovalRisk
  | medium | high
deriving DecidableEq, Repr

structure ApprovalRequest where
  id : String
  runId : String
  taskId : String
  reason : String
  requestedAction : ApprovalRequestedAction
  riskLevel : ApprovalRisk
  status : ApprovalStatus
  metadata : Record String
  createdAt : String
  approvedAt : Option String
  approvedBy : Option String
  rejectedAt : Option String
  rejectedBy : Option String
  rejectionReason : Option String
  resumedAt : Option String
  resumedBy : Option String
  completedAt : Option String
  decisionPolicyDecisionId : Option String
  decisionEvidenceId : Option String
deriving DecidableEq

/-! ### Policy decisions -/

inductive ExecutionPolicyActionType
  | gitCommit | gitPush | prDraft | artifactWrite | externalApi
deriving DecidableEq, Repr

def ExecutionPolicyActionType.text : ExecutionPolicyActionType → String
  | .gitCommit => "git_commit"
  | .gitPush => "git_push"
  | .prDraft => "pr_draft"
  | .artifactWrite => "artifact_write"
  | .externalApi => "external_api"

inductive ExecutionPolicyRiskLevel
  | low | medium | high
deriving DecidableEq, Repr

inductive ExecutionPolicyDecisionResult
  | allow | deny | error
deriving DecidableEq, Repr

structure ExecutionPolicyDecision where
  decisionId : String
  tenantId : String
  projectId : String
  runId : String
  stepId : String
  attempt : Nat
  actionType : ExecutionPolicyActionType
  riskLevel : ExecutionPolicyRiskLevel
  decision : ExecutionPolicyDecisionResult
  reasonCodes : List String
  decidedAt : String
  decider : String
  inputHash : String
  traceId : String
  policyVersion : String
deriving DecidableEq

/-! ### Architecture, discovery, milestones -/

inductive ArchitectureIssueType
  | cyclicDependency | layeringViolation | leakyAbstraction | overcoupling | contractInstability
  | criticalPathGap
deriving DecidableEq, Repr

inductive ArchitectureSeverity
  | low | medium | high | critical
deriving DecidableEq, Repr

structure ArchitectureFinding where
  subsystem : String
  issueType : ArchitectureIssueType
  description : String
  impact : String
  recommendation : String
  affectedModules : List String
  severity : ArchitectureSeverity
deriving DecidableEq

structure ProjectArchitecture where
  packageMap : Record (List String)
  subsystemMap : Record (List String)
  unstableAreas : List String
  criticalPaths : List String
  findings : List ArchitectureFinding
  analysisSummary : Option String
deriving DecidableEq

structure ProjectDiscovery where
  generatedAt : String
  packageMap : Record (List String)
  subsystemMap : Record (List String)
  packageInventory : List String
  entryPoints : List String
  testInfrastructure : List String
  healthObservations : List String
  unstableAreaCandidates : List String
  criticalPaths : List String
  recommendedNextStep : String
deriving DecidableEq

inductive HealthStatus
  | unknown | passing | failing
deriving DecidableEq, Repr

structure RepoHealth where
  build : HealthStatus
  tests : HealthStatus
  lint : HealthStatus
  typecheck : HealthStatus
deriving DecidableEq

inductive MilestoneStatus
  | todo | inProgress | done | blocked
deriving DecidableEq, Repr

structure Milestone where
  id : String
  title : String
  goal : String
  status : MilestoneStatus
  epicIds : List String
  entryCriteria : List String
  exitCriteria : List String
deriving DecidableEq

/-! ### Execution state -/

inductive DedupStatus
  | pending | succeeded | failed | expired
deriving DecidableEq, Repr

structure DedupRegistryRecord where
  key : String
  status : DedupStatus
  leaseOwner : String
  createdAt : String
  updatedAt : String
  expiresAt : String
  policyDecisionId : Option String
  evidenceId : Option String
deriving DecidableEq

inductive RunStepStatus
  | succeeded | failed | timedOut | cancelled | cancellationRequested | compensationPending
  | compensated
deriving DecidableEq, Repr

def RunStepStatus.text : RunStepStatus → String
  | .succeeded => "succeeded"
  | .failed => "failed"
  | .timedOut => "timed_out"
  | .cancelled => "cancelled"
  | .cancellationRequested => "cancellation_requested"
  | .compensationPending => "compensation_pending"
  | .compensated => "compensated"

structure RunStepLogEntry where
  id : String
  tenantId : String
  projectId : String
  runId : String
  stepId : String
  attempt : Nat
  taskId : Option String
  role : String
  tool : Option String
  input : String
  output : String
  status : RunStepStatus
  policyDecisionId : Option String
  idempotencyKey : String
  payloadRef : Option String
  checksum : String
  prevChecksum : Option String
  traceId : String
  durationMs : Nat
  createdAt : String
deriving DecidableEq

structure ExecutionState where
  activeTaskId : Option String
  activeRunId : Option String
  completedTaskIds : List String
  blockedTaskIds : List String
  retryCounts : Record Nat
  stepCount : Nat
  runStepLog : List RunStepLogEntry
  dedupRegistry : Record DedupRegistryRecord
deriving DecidableEq

/-- **Project state**: the document that the stores hold. -/
structure ProjectState where
  revision : Nat
  orgId : String
  projectId : String
  projectName : String
  summary : String
  currentMilestoneId : Option String
  architecture : ProjectArchitecture
  discovery : ProjectDiscovery
  repoHealth : RepoHealth
  backlog : Backlog
  execution : ExecutionState
  milestones : Record Milestone
  decisions : List DecisionLogItem
  failures : List FailureRecord
  artifacts : List ArtifactRecord
  approvals : List ApprovalRequest
  policyDecisions : List ExecutionPolicyDecision
deriving DecidableEq

namespace ProjectState

/-- `state.execution.retryCounts[taskId] ?? 0`, where the lookup finds a count or nothing. -/
def retryCount (state : ProjectState) (taskId : String) : Nat :=
  (state.execution.retryCounts.get? taskId).getD 0

/-- **The lookup of a retry count** finds a count or nothing, not a member that every object
inherits, which is not a number. -/
def RetryCounted (state : ProjectState) (taskId : String) : Prop :=
  taskId ∈ inheritedNames → taskId ∈ state.execution.retryCounts.keys

instance (state : ProjectState) (taskId : String) : Decidable (state.RetryCounted taskId) :=
  inferInstanceAs (Decidable (_ → _))

/-- A count that is there has been found. -/
theorem retryCounted_of_pos {state : ProjectState} {taskId : String}
    (h : 0 < state.retryCount taskId) : state.RetryCounted taskId := by
  intro _
  cases hget : state.execution.retryCounts.get? taskId with
  | some count => exact Dict.mem_keys_of_get? hget
  | none =>
    rw [retryCount, hget] at h
    cases h

/-- `createEmptyProjectState`. -/
def createEmpty (orgId : Option String) (projectId projectName summary : String) :
    ProjectState where
  revision := 0
  orgId := orgId.getD "default-org"
  projectId := projectId
  projectName := projectName
  summary := summary
  currentMilestoneId := none
  architecture :=
    { packageMap := ∅, subsystemMap := ∅, unstableAreas := [], criticalPaths := []
      findings := [], analysisSummary := none }
  discovery :=
    { generatedAt := "", packageMap := ∅, subsystemMap := ∅, packageInventory := []
      entryPoints := [], testInfrastructure := [], healthObservations := []
      unstableAreaCandidates := [], criticalPaths := []
      recommendedNextStep := "bootstrap_analysis" }
  repoHealth := { build := .unknown, tests := .unknown, lint := .unknown, typecheck := .unknown }
  backlog := { epics := ∅, features := ∅, tasks := ∅ }
  execution :=
    { activeTaskId := none, activeRunId := none, completedTaskIds := [], blockedTaskIds := []
      retryCounts := ∅, stepCount := 0, runStepLog := [], dedupRegistry := ∅ }
  milestones := ∅
  decisions := []
  failures := []
  artifacts := []
  approvals := []
  policyDecisions := []

end ProjectState

end AiOrchestrator
