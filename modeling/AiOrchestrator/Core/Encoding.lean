import AiOrchestrator.Core.ProjectState
import AiOrchestrator.Lib.Json

/-!
# The state as JSON

The JSON value that `JSON.stringify` and the snapshot column see of a project state.
An optional field that is absent contributes no property; a `Record` is the object
whose property names are the keys of the map.
-/

namespace AiOrchestrator

/-! ### The texts of the enumerations -/

def BacklogTaskKind.text : BacklogTaskKind → String
  | .bootstrap => "bootstrap"
  | .analysis => "analysis"
  | .architecture => "architecture"
  | .planning => "planning"
  | .implementation => "implementation"
  | .review => "review"
  | .testing => "testing"
  | .documentation => "documentation"
  | .release => "release"

def BacklogTaskStatus.text : BacklogTaskStatus → String
  | .todo => "todo"
  | .inProgress => "in_progress"
  | .review => "review"
  | .testing => "testing"
  | .done => "done"
  | .blocked => "blocked"
  | .superseded => "superseded"

def EpicStatus.text : EpicStatus → String
  | .todo => "todo"
  | .inProgress => "in_progress"
  | .done => "done"
  | .blocked => "blocked"
  | .superseded => "superseded"

def Priority.text : Priority → String
  | .p0 => "p0"
  | .p1 => "p1"
  | .p2 => "p2"
  | .p3 => "p3"

def EstimatedRisk.text : EstimatedRisk → String
  | .low => "low"
  | .medium => "medium"
  | .high => "high"

def ApprovalRisk.text : ApprovalRisk → String
  | .medium => "medium"
  | .high => "high"

def ExecutionPolicyRiskLevel.text : ExecutionPolicyRiskLevel → String
  | .low => "low"
  | .medium => "medium"
  | .high => "high"

def ExecutionPolicyDecisionResult.text : ExecutionPolicyDecisionResult → String
  | .allow => "allow"
  | .deny => "deny"
  | .error => "error"

def ArchitectureIssueType.text : ArchitectureIssueType → String
  | .cyclicDependency => "cyclic_dependency"
  | .layeringViolation => "layering_violation"
  | .leakyAbstraction => "leaky_abstraction"
  | .overcoupling => "overcoupling"
  | .contractInstability => "contract_instability"
  | .criticalPathGap => "critical_path_gap"

def ArchitectureSeverity.text : ArchitectureSeverity → String
  | .low => "low"
  | .medium => "medium"
  | .high => "high"
  | .critical => "critical"

def HealthStatus.text : HealthStatus → String
  | .unknown => "unknown"
  | .passing => "passing"
  | .failing => "failing"

def MilestoneStatus.text : MilestoneStatus → String
  | .todo => "todo"
  | .inProgress => "in_progress"
  | .done => "done"
  | .blocked => "blocked"

def DedupStatus.text : DedupStatus → String
  | .pending => "pending"
  | .succeeded => "succeeded"
  | .failed => "failed"
  | .expired => "expired"

/-! ### Building objects -/

/-- An array of texts. -/
def jsonTexts (texts : List String) : Json Nat := .arr (texts.map .str)

/-- A map as an object. -/
def jsonRecord {α : Type} (encode : α → Json Nat) (record : Record α) : Json Nat :=
  .obj (record.entries.map fun entry => (entry.1, encode entry.2))

/-- The property of an optional text, when it is present. -/
def optionalText (name : String) : Option String → List (String × Json Nat)
  | none => []
  | some text => [(name, .str text)]

/-! ### The parts of a state -/

def BacklogTask.toJson (task : BacklogTask) : Json Nat :=
  .obj <| [("id", .str task.id), ("featureId", .str task.featureId)] ++
    optionalText "splitFromTaskId" task.splitFromTaskId ++
    [("title", .str task.title), ("kind", .str task.kind.text), ("status", .str task.status.text),
      ("priority", .str task.priority.text), ("dependsOn", jsonTexts task.dependsOn),
      ("acceptanceCriteria", jsonTexts task.acceptanceCriteria),
      ("affectedModules", jsonTexts task.affectedModules),
      ("estimatedRisk", .str task.estimatedRisk.text)]

def Epic.toJson (epic : Epic) : Json Nat :=
  .obj [("id", .str epic.id), ("title", .str epic.title), ("goal", .str epic.goal),
    ("status", .str epic.status.text), ("featureIds", jsonTexts epic.featureIds)]

def Feature.toJson (feature : Feature) : Json Nat :=
  .obj [("id", .str feature.id), ("epicId", .str feature.epicId), ("title", .str feature.title),
    ("outcome", .str feature.outcome), ("risks", jsonTexts feature.risks),
    ("taskIds", jsonTexts feature.taskIds)]

def Backlog.toJson (backlog : Backlog) : Json Nat :=
  .obj [("epics", jsonRecord Epic.toJson backlog.epics),
    ("features", jsonRecord Feature.toJson backlog.features),
    ("tasks", jsonRecord BacklogTask.toJson backlog.tasks)]

def FailureRecord.toJson (failure : FailureRecord) : Json Nat :=
  .obj <| [("id", .str failure.id), ("taskId", .str failure.taskId),
      ("role", .str failure.role.text), ("reason", .str failure.reason),
      ("symptoms", jsonTexts failure.symptoms), ("badPatterns", jsonTexts failure.badPatterns),
      ("retrySuggested", .bool failure.retrySuggested)] ++
    optionalText "status" (failure.status.map FailureStatus.text) ++
    optionalText "checkpointRunId" failure.checkpointRunId ++
    optionalText "checkpointStepId" failure.checkpointStepId ++
    optionalText "deadLetteredAt" failure.deadLetteredAt ++
    optionalText "resumedAt" failure.resumedAt ++
    optionalText "replayedAt" failure.replayedAt ++
    [("createdAt", .str failure.createdAt)]

def DecisionLogItem.toJson (decision : DecisionLogItem) : Json Nat :=
  .obj [("id", .str decision.id), ("title", .str decision.title),
    ("decision", .str decision.decision), ("rationale", .str decision.rationale),
    ("affectedAreas", jsonTexts decision.affectedAreas), ("createdAt", .str decision.createdAt)]

def ArtifactRecord.toJson (artifact : ArtifactRecord) : Json Nat :=
  .obj <| [("id", .str artifact.id), ("type", .str artifact.type.text),
      ("title", .str artifact.title)] ++
    optionalText "location" artifact.location ++
    [("metadata", jsonRecord .str artifact.metadata), ("createdAt", .str artifact.createdAt)]

def ApprovalRequest.toJson (request : ApprovalRequest) : Json Nat :=
  .obj <| [("id", .str request.id), ("runId", .str request.runId),
      ("taskId", .str request.taskId), ("reason", .str request.reason),
      ("requestedAction", .str request.requestedAction.text),
      ("riskLevel", .str request.riskLevel.text), ("status", .str request.status.text),
      ("metadata", jsonRecord .str request.metadata), ("createdAt", .str request.createdAt)] ++
    optionalText "approvedAt" request.approvedAt ++
    optionalText "approvedBy" request.approvedBy ++
    optionalText "rejectedAt" request.rejectedAt ++
    optionalText "rejectedBy" request.rejectedBy ++
    optionalText "rejectionReason" request.rejectionReason ++
    optionalText "resumedAt" request.resumedAt ++
    optionalText "resumedBy" request.resumedBy ++
    optionalText "completedAt" request.completedAt ++
    optionalText "decisionPolicyDecisionId" request.decisionPolicyDecisionId ++
    optionalText "decisionEvidenceId" request.decisionEvidenceId

def ExecutionPolicyDecision.toJson (decision : ExecutionPolicyDecision) : Json Nat :=
  .obj [("decisionId", .str decision.decisionId), ("tenantId", .str decision.tenantId),
    ("projectId", .str decision.projectId), ("runId", .str decision.runId),
    ("stepId", .str decision.stepId), ("attempt", .num decision.attempt),
    ("actionType", .str decision.actionType.text), ("riskLevel", .str decision.riskLevel.text),
    ("decision", .str decision.decision.text), ("reasonCodes", jsonTexts decision.reasonCodes),
    ("decidedAt", .str decision.decidedAt), ("decider", .str decision.decider),
    ("inputHash", .str decision.inputHash), ("traceId", .str decision.traceId),
    ("policyVersion", .str decision.policyVersion)]

def ArchitectureFinding.toJson (finding : ArchitectureFinding) : Json Nat :=
  .obj [("subsystem", .str finding.subsystem), ("issueType", .str finding.issueType.text),
    ("description", .str finding.description), ("impact", .str finding.impact),
    ("recommendation", .str finding.recommendation),
    ("affectedModules", jsonTexts finding.affectedModules),
    ("severity", .str finding.severity.text)]

def ProjectArchitecture.toJson (architecture : ProjectArchitecture) : Json Nat :=
  .obj <| [("packageMap", jsonRecord jsonTexts architecture.packageMap),
      ("subsystemMap", jsonRecord jsonTexts architecture.subsystemMap),
      ("unstableAreas", jsonTexts architecture.unstableAreas),
      ("criticalPaths", jsonTexts architecture.criticalPaths),
      ("findings", .arr (architecture.findings.map ArchitectureFinding.toJson))] ++
    optionalText "analysisSummary" architecture.analysisSummary

def ProjectDiscovery.toJson (discovery : ProjectDiscovery) : Json Nat :=
  .obj [("generatedAt", .str discovery.generatedAt),
    ("packageMap", jsonRecord jsonTexts discovery.packageMap),
    ("subsystemMap", jsonRecord jsonTexts discovery.subsystemMap),
    ("packageInventory", jsonTexts discovery.packageInventory),
    ("entryPoints", jsonTexts discovery.entryPoints),
    ("testInfrastructure", jsonTexts discovery.testInfrastructure),
    ("healthObservations", jsonTexts discovery.healthObservations),
    ("unstableAreaCandidates", jsonTexts discovery.unstableAreaCandidates),
    ("criticalPaths", jsonTexts discovery.criticalPaths),
    ("recommendedNextStep", .str discovery.recommendedNextStep)]

def RepoHealth.toJson (health : RepoHealth) : Json Nat :=
  .obj [("build", .str health.build.text), ("tests", .str health.tests.text),
    ("lint", .str health.lint.text), ("typecheck", .str health.typecheck.text)]

def Milestone.toJson (milestone : Milestone) : Json Nat :=
  .obj [("id", .str milestone.id), ("title", .str milestone.title), ("goal", .str milestone.goal),
    ("status", .str milestone.status.text), ("epicIds", jsonTexts milestone.epicIds),
    ("entryCriteria", jsonTexts milestone.entryCriteria),
    ("exitCriteria", jsonTexts milestone.exitCriteria)]

def DedupRegistryRecord.toJson (entry : DedupRegistryRecord) : Json Nat :=
  .obj <| [("key", .str entry.key), ("status", .str entry.status.text),
      ("leaseOwner", .str entry.leaseOwner), ("createdAt", .str entry.createdAt),
      ("updatedAt", .str entry.updatedAt), ("expiresAt", .str entry.expiresAt)] ++
    optionalText "policyDecisionId" entry.policyDecisionId ++
    optionalText "evidenceId" entry.evidenceId

def RunStepLogEntry.toJson (step : RunStepLogEntry) : Json Nat :=
  .obj <| [("id", .str step.id), ("tenantId", .str step.tenantId),
      ("projectId", .str step.projectId), ("runId", .str step.runId),
      ("stepId", .str step.stepId), ("attempt", .num step.attempt)] ++
    optionalText "taskId" step.taskId ++
    [("role", .str step.role)] ++
    optionalText "tool" step.tool ++
    [("input", .str step.input), ("output", .str step.output), ("status", .str step.status.text)] ++
    optionalText "policyDecisionId" step.policyDecisionId ++
    [("idempotencyKey", .str step.idempotencyKey)] ++
    optionalText "payloadRef" step.payloadRef ++
    [("checksum", .str step.checksum)] ++
    optionalText "prevChecksum" step.prevChecksum ++
    [("traceId", .str step.traceId), ("durationMs", .num step.durationMs),
      ("createdAt", .str step.createdAt)]

def ExecutionState.toJson (execution : ExecutionState) : Json Nat :=
  .obj <| optionalText "activeTaskId" execution.activeTaskId ++
    optionalText "activeRunId" execution.activeRunId ++
    [("completedTaskIds", jsonTexts execution.completedTaskIds),
      ("blockedTaskIds", jsonTexts execution.blockedTaskIds),
      ("retryCounts", jsonRecord .num execution.retryCounts),
      ("stepCount", .num execution.stepCount),
      ("runStepLog", .arr (execution.runStepLog.map RunStepLogEntry.toJson)),
      ("dedupRegistry", jsonRecord DedupRegistryRecord.toJson execution.dedupRegistry)]

/-- **The JSON value of a project state**. -/
def ProjectState.toJson (state : ProjectState) : Json Nat :=
  .obj <| [("revision", .num state.revision), ("orgId", .str state.orgId),
      ("projectId", .str state.projectId), ("projectName", .str state.projectName),
      ("summary", .str state.summary)] ++
    optionalText "currentMilestoneId" state.currentMilestoneId ++
    [("architecture", state.architecture.toJson), ("discovery", state.discovery.toJson),
      ("repoHealth", state.repoHealth.toJson), ("backlog", state.backlog.toJson),
      ("execution", state.execution.toJson),
      ("milestones", jsonRecord Milestone.toJson state.milestones),
      ("decisions", .arr (state.decisions.map DecisionLogItem.toJson)),
      ("failures", .arr (state.failures.map FailureRecord.toJson)),
      ("artifacts", .arr (state.artifacts.map ArtifactRecord.toJson)),
      ("approvals", .arr (state.approvals.map ApprovalRequest.toJson)),
      ("policyDecisions", .arr (state.policyDecisions.map ExecutionPolicyDecision.toJson))]

end AiOrchestrator
