import AiOrchestrator.Core.ProjectState

/-!
# Validation of project states

`validateProjectState` returns the issues of a state in the order in which the
program collects them: first those of the deep schema, each as a path and a
message, then the cross-reference checks. The schema checks the shape of every
field; here the shape is the type, and what is left of it are the non-empty texts
and the date-times.

A state is accepted when there are no issues. `validateProjectState_eq_nil_iff`
says what that means as a structure of named clauses, `ProjectState.Valid`, which is
the form in which every later proof uses acceptance.

The schema does not mention `projectId`, and no check compares the key of a map
with the id of the entity stored under it. A reference counts as resolved when the lookup finds
something, which may be a member that every object inherits (`Record.Finds`).
-/

namespace AiOrchestrator

/-! ### Schema combinators -/

/-- `z.string().min(1)`. -/
def minOne (path value : String) : List String :=
  if value = "" then [path ++ ": Too small: expected string to have >=1 characters"] else []

/-- `z.iso.datetime({ offset: true })`. -/
def isoDateTime (path value : String) : List String :=
  if Text.isIsoDateTime value then [] else [path ++ ": Invalid ISO datetime"]

/-- `.optional()`. -/
def optionally {α : Type} (check : String → α → List String) (path : String) :
    Option α → List String
  | none => []
  | some value => check path value

/-- The check at every index from `i` on. -/
def eachFrom {α : Type} (check : String → α → List String) (path : String) :
    Nat → List α → List String
  | _, [] => []
  | i, value :: values => check s!"{path}.[{i}]" value ++ eachFrom check path (i + 1) values

/-- `z.array(..)`: the check at every index. -/
def each {α : Type} (check : String → α → List String) (path : String) (values : List α) :
    List String :=
  eachFrom check path 0 values

/-- `z.record(z.string(), ..)`: the check at every key. -/
def eachValue {α : Type} (check : String → α → List String) (path : String) (record : Record α) :
    List String :=
  record.entries.flatMap fun entry => check s!"{path}.{entry.1}" entry.2

@[simp] theorem minOne_eq_nil_iff {path value : String} : minOne path value = [] ↔ value ≠ "" := by
  unfold minOne
  split <;> simp_all

@[simp] theorem isoDateTime_eq_nil_iff {path value : String} :
    isoDateTime path value = [] ↔ Text.isIsoDateTime value = true := by
  unfold isoDateTime
  split <;> simp_all

/-- A check whose verdict does not depend on the path it reports. -/
def Decides {α : Type} (check : String → α → List String) (p : α → Prop) : Prop :=
  ∀ path value, check path value = [] ↔ p value

theorem decides_minOne : Decides minOne (· ≠ "") := fun _ _ => minOne_eq_nil_iff

theorem decides_isoDateTime : Decides isoDateTime (Text.isIsoDateTime · = true) :=
  fun _ _ => isoDateTime_eq_nil_iff

theorem optionally_eq_nil_iff {α : Type} {check : String → α → List String} {p : α → Prop}
    (h : Decides check p) {path : String} {value : Option α} :
    optionally check path value = [] ↔ ∀ v, value = some v → p v := by
  cases value with
  | none => simp [optionally]
  | some v => simp [optionally, h path v]

theorem eachFrom_eq_nil_iff {α : Type} {check : String → α → List String} {p : α → Prop}
    (h : Decides check p) {path : String} {i : Nat} {values : List α} :
    eachFrom check path i values = [] ↔ ∀ v ∈ values, p v := by
  induction values generalizing i with
  | nil => simp [eachFrom]
  | cons v vs ih => simp [eachFrom, h _ v, ih]

theorem each_eq_nil_iff {α : Type} {check : String → α → List String} {p : α → Prop}
    (h : Decides check p) {path : String} {values : List α} :
    each check path values = [] ↔ ∀ v ∈ values, p v :=
  eachFrom_eq_nil_iff h

theorem eachValue_eq_nil_iff {α : Type} {check : String → α → List String} {p : α → Prop}
    (h : Decides check p) {path : String} {record : Record α} :
    eachValue check path record = [] ↔ ∀ v ∈ record.values, p v := by
  unfold eachValue
  rw [List.flatMap_eq_nil_iff]
  constructor
  · intro hall v hv
    obtain ⟨⟨k, w⟩, hmem, rfl⟩ := List.mem_map.mp hv
    exact (h _ _).mp (hall (k, w) hmem)
  · rintro hall ⟨k, v⟩ hmem
    exact (h _ _).mpr (hall v (List.mem_map.mpr ⟨(k, v), hmem, rfl⟩))

/-! ### The deep schema -/

def backlogTaskSchema (path : String) (task : BacklogTask) : List String :=
  minOne (path ++ ".id") task.id ++
  minOne (path ++ ".featureId") task.featureId ++
  optionally minOne (path ++ ".splitFromTaskId") task.splitFromTaskId ++
  minOne (path ++ ".title") task.title ++
  each minOne (path ++ ".dependsOn") task.dependsOn ++
  each minOne (path ++ ".acceptanceCriteria") task.acceptanceCriteria ++
  each minOne (path ++ ".affectedModules") task.affectedModules

def epicSchema (path : String) (epic : Epic) : List String :=
  minOne (path ++ ".id") epic.id ++
  minOne (path ++ ".title") epic.title ++
  minOne (path ++ ".goal") epic.goal ++
  each minOne (path ++ ".featureIds") epic.featureIds

def featureSchema (path : String) (feature : Feature) : List String :=
  minOne (path ++ ".id") feature.id ++
  minOne (path ++ ".epicId") feature.epicId ++
  minOne (path ++ ".title") feature.title ++
  minOne (path ++ ".outcome") feature.outcome ++
  each minOne (path ++ ".risks") feature.risks ++
  each minOne (path ++ ".taskIds") feature.taskIds

def milestoneSchema (path : String) (milestone : Milestone) : List String :=
  minOne (path ++ ".id") milestone.id ++
  minOne (path ++ ".title") milestone.title ++
  minOne (path ++ ".goal") milestone.goal ++
  each minOne (path ++ ".epicIds") milestone.epicIds

def decisionSchema (path : String) (decision : DecisionLogItem) : List String :=
  minOne (path ++ ".id") decision.id ++
  minOne (path ++ ".title") decision.title ++
  minOne (path ++ ".decision") decision.decision ++
  minOne (path ++ ".rationale") decision.rationale ++
  each minOne (path ++ ".affectedAreas") decision.affectedAreas ++
  isoDateTime (path ++ ".createdAt") decision.createdAt

def failureSchema (path : String) (failure : FailureRecord) : List String :=
  minOne (path ++ ".id") failure.id ++
  minOne (path ++ ".taskId") failure.taskId ++
  minOne (path ++ ".reason") failure.reason ++
  each minOne (path ++ ".symptoms") failure.symptoms ++
  each minOne (path ++ ".badPatterns") failure.badPatterns ++
  optionally minOne (path ++ ".checkpointRunId") failure.checkpointRunId ++
  optionally minOne (path ++ ".checkpointStepId") failure.checkpointStepId ++
  optionally isoDateTime (path ++ ".deadLetteredAt") failure.deadLetteredAt ++
  optionally isoDateTime (path ++ ".resumedAt") failure.resumedAt ++
  optionally isoDateTime (path ++ ".replayedAt") failure.replayedAt ++
  isoDateTime (path ++ ".createdAt") failure.createdAt

def artifactSchema (path : String) (artifact : ArtifactRecord) : List String :=
  minOne (path ++ ".id") artifact.id ++
  minOne (path ++ ".title") artifact.title ++
  optionally minOne (path ++ ".location") artifact.location ++
  eachValue minOne (path ++ ".metadata") artifact.metadata ++
  isoDateTime (path ++ ".createdAt") artifact.createdAt

def approvalRequestSchema (path : String) (request : ApprovalRequest) : List String :=
  minOne (path ++ ".id") request.id ++
  minOne (path ++ ".runId") request.runId ++
  minOne (path ++ ".taskId") request.taskId ++
  minOne (path ++ ".reason") request.reason ++
  eachValue minOne (path ++ ".metadata") request.metadata ++
  isoDateTime (path ++ ".createdAt") request.createdAt ++
  optionally isoDateTime (path ++ ".approvedAt") request.approvedAt ++
  optionally minOne (path ++ ".approvedBy") request.approvedBy ++
  optionally isoDateTime (path ++ ".rejectedAt") request.rejectedAt ++
  optionally minOne (path ++ ".rejectedBy") request.rejectedBy ++
  optionally minOne (path ++ ".rejectionReason") request.rejectionReason ++
  optionally isoDateTime (path ++ ".resumedAt") request.resumedAt ++
  optionally minOne (path ++ ".resumedBy") request.resumedBy ++
  optionally isoDateTime (path ++ ".completedAt") request.completedAt

def executionPolicyDecisionSchema (path : String) (decision : ExecutionPolicyDecision) :
    List String :=
  minOne (path ++ ".decisionId") decision.decisionId ++
  minOne (path ++ ".tenantId") decision.tenantId ++
  minOne (path ++ ".projectId") decision.projectId ++
  minOne (path ++ ".runId") decision.runId ++
  minOne (path ++ ".stepId") decision.stepId ++
  each minOne (path ++ ".reasonCodes") decision.reasonCodes ++
  isoDateTime (path ++ ".decidedAt") decision.decidedAt ++
  minOne (path ++ ".decider") decision.decider ++
  minOne (path ++ ".inputHash") decision.inputHash ++
  minOne (path ++ ".traceId") decision.traceId ++
  minOne (path ++ ".policyVersion") decision.policyVersion ++
  (if decision.decision ≠ .allow ∧ decision.reasonCodes = [] then
    [path ++ ".reasonCodes: reasonCodes must include at least one code when decision is deny or error"]
  else [])

def runStepLogEntrySchema (path : String) (step : RunStepLogEntry) : List String :=
  minOne (path ++ ".id") step.id ++
  minOne (path ++ ".tenantId") step.tenantId ++
  minOne (path ++ ".projectId") step.projectId ++
  minOne (path ++ ".runId") step.runId ++
  minOne (path ++ ".stepId") step.stepId ++
  optionally minOne (path ++ ".taskId") step.taskId ++
  minOne (path ++ ".role") step.role ++
  optionally minOne (path ++ ".tool") step.tool ++
  optionally minOne (path ++ ".policyDecisionId") step.policyDecisionId ++
  minOne (path ++ ".idempotencyKey") step.idempotencyKey ++
  optionally minOne (path ++ ".payloadRef") step.payloadRef ++
  minOne (path ++ ".checksum") step.checksum ++
  optionally minOne (path ++ ".prevChecksum") step.prevChecksum ++
  minOne (path ++ ".traceId") step.traceId ++
  isoDateTime (path ++ ".createdAt") step.createdAt

def dedupRecordSchema (path : String) (entry : DedupRegistryRecord) : List String :=
  minOne (path ++ ".key") entry.key ++
  minOne (path ++ ".leaseOwner") entry.leaseOwner ++
  isoDateTime (path ++ ".createdAt") entry.createdAt ++
  isoDateTime (path ++ ".updatedAt") entry.updatedAt ++
  isoDateTime (path ++ ".expiresAt") entry.expiresAt ++
  optionally minOne (path ++ ".policyDecisionId") entry.policyDecisionId ++
  optionally minOne (path ++ ".evidenceId") entry.evidenceId

def executionStateSchema (path : String) (execution : ExecutionState) : List String :=
  optionally minOne (path ++ ".activeTaskId") execution.activeTaskId ++
  optionally minOne (path ++ ".activeRunId") execution.activeRunId ++
  each minOne (path ++ ".completedTaskIds") execution.completedTaskIds ++
  each minOne (path ++ ".blockedTaskIds") execution.blockedTaskIds ++
  each runStepLogEntrySchema (path ++ ".runStepLog") execution.runStepLog ++
  eachValue dedupRecordSchema (path ++ ".dedupRegistry") execution.dedupRegistry

def projectStateDeepSchema (state : ProjectState) : List String :=
  minOne "orgId" state.orgId ++
  eachValue epicSchema "backlog.epics" state.backlog.epics ++
  eachValue featureSchema "backlog.features" state.backlog.features ++
  eachValue backlogTaskSchema "backlog.tasks" state.backlog.tasks ++
  eachValue milestoneSchema "milestones" state.milestones ++
  each decisionSchema "decisions" state.decisions ++
  each failureSchema "failures" state.failures ++
  each artifactSchema "artifacts" state.artifacts ++
  each approvalRequestSchema "approvals" state.approvals ++
  each executionPolicyDecisionSchema "policyDecisions" state.policyDecisions ++
  executionStateSchema "execution" state.execution

/-! ### The checks beyond the schema -/

def validateProjectDiscovery (discovery : ProjectDiscovery) : List String :=
  (if Text.isBlank discovery.recommendedNextStep then
    ["Discovery recommendedNextStep is required"] else []) ++
  (if discovery.packageInventory.any Text.isBlank then
    ["Discovery packageInventory must not contain empty entries"] else []) ++
  (if discovery.criticalPaths.any Text.isBlank then
    ["Discovery criticalPaths must not contain empty entries"] else [])

def validateArchitectureFinding (finding : ArchitectureFinding) : List String :=
  (if Text.isBlank finding.subsystem then ["Architecture finding subsystem is required"] else []) ++
  (if Text.isBlank finding.description then
    ["Architecture finding description is required"] else []) ++
  (if Text.isBlank finding.impact then ["Architecture finding impact is required"] else []) ++
  (if Text.isBlank finding.recommendation then
    ["Architecture finding recommendation is required"] else []) ++
  (if finding.affectedModules.length = 0 then
    ["Architecture finding must reference affected modules"] else [])

/-- `validateExecutionPolicyDecision` in the context of a state; the run id it is
compared with is the decision's own. -/
def validateExecutionPolicyDecision (tenantId projectId : String)
    (decision : ExecutionPolicyDecision) : List String :=
  executionPolicyDecisionSchema "executionPolicyDecision" decision ++
  (if decision.tenantId ≠ tenantId then
    ["tenantId: decision tenantId does not match project state orgId"] else []) ++
  (if decision.projectId ≠ projectId then
    ["projectId: decision projectId does not match project state projectId"] else [])

def validateFeatureReferences (state : ProjectState) (feature : Feature) : List String :=
  (if state.backlog.epics.finds feature.epicId = false then
    [s!"Feature {feature.id} references missing epic {feature.epicId}"] else []) ++
  feature.taskIds.flatMap fun taskId =>
    match state.backlog.tasks.get? taskId with
    | none =>
      -- an inherited member has neither an id nor a feature
      if inheritedNames.contains taskId then
        [s!"Task undefined featureId does not match feature {feature.id}"]
      else [s!"Feature {feature.id} references missing task {taskId}"]
    | some task =>
      if task.featureId ≠ feature.id then
        [s!"Task {task.id} featureId does not match feature {feature.id}"] else []

def validateEpicReferences (state : ProjectState) (epic : Epic) : List String :=
  epic.featureIds.flatMap fun featureId =>
    if state.backlog.features.finds featureId = false then
      [s!"Epic {epic.id} references missing feature {featureId}"] else []

def validateTaskReferences (state : ProjectState) (task : BacklogTask) : List String :=
  validateBacklogTask task ++
  (match task.splitFromTaskId with
    | some parent =>
      if parent ≠ "" ∧ state.backlog.tasks.finds parent = false then
        [s!"Task {task.id} splitFromTaskId references missing task {parent}"] else []
    | none => []) ++
  task.dependsOn.flatMap fun dependency =>
    if state.backlog.tasks.finds dependency = false then
      [s!"Task {task.id} depends on missing task {dependency}"] else []

/-- The status that a lookup shows: that of the task, and none for an inherited member. -/
def shownStatus (state : ProjectState) (taskId : String) : Option BacklogTaskStatus :=
  (state.backlog.tasks.get? taskId).map BacklogTask.status

def validateBlockedReference (state : ProjectState) (blockedTaskId : String) : List String :=
  if state.backlog.tasks.finds blockedTaskId = false then
    [s!"Blocked task reference is missing: {blockedTaskId}"]
  else
    (if shownStatus state blockedTaskId ≠ some .blocked then
      [s!"Blocked task {blockedTaskId} must have blocked status"] else []) ++
    (if (state.failures.any fun failure => failure.taskId = blockedTaskId) = false ∧
        (state.artifacts.any fun artifact =>
          artifact.metadata.get? "taskId" = some blockedTaskId) = false then
      [s!"Blocked task {blockedTaskId} requires a failure or artifact record"] else [])

def validateCompletedReference (state : ProjectState) (completedTaskId : String) : List String :=
  if state.backlog.tasks.finds completedTaskId = false then
    [s!"Completed task reference is missing: {completedTaskId}"]
  else if shownStatus state completedTaskId ≠ some .done then
    [s!"Completed task {completedTaskId} must have done status"]
  else []

/-- **`validateProjectState`**: all issues of a state, in the program's order. -/
def validateProjectState (state : ProjectState) : List String :=
  projectStateDeepSchema state ++
  validateProjectDiscovery state.discovery ++
  state.architecture.findings.flatMap validateArchitectureFinding ++
  state.policyDecisions.flatMap (validateExecutionPolicyDecision state.orgId state.projectId) ++
  (match state.architecture.analysisSummary with
    | some summary =>
      if Text.isBlank summary then
        ["Architecture analysisSummary must not be empty when present"] else []
    | none => []) ++
  (match state.currentMilestoneId with
    | some milestoneId =>
      if milestoneId ≠ "" ∧ state.milestones.finds milestoneId = false then
        [s!"currentMilestoneId references missing milestone: {milestoneId}"] else []
    | none => []) ++
  (match state.execution.activeTaskId with
    | some taskId =>
      if taskId ≠ "" ∧ state.backlog.tasks.finds taskId = false then
        [s!"activeTaskId references missing task: {taskId}"] else []
    | none => []) ++
  state.backlog.features.values.flatMap (validateFeatureReferences state) ++
  state.backlog.epics.values.flatMap (validateEpicReferences state) ++
  state.backlog.tasks.values.flatMap (validateTaskReferences state) ++
  (if (state.milestones.values.filter fun milestone =>
      milestone.status = .inProgress).length > 1 then
    ["Only one milestone may be in_progress"] else []) ++
  state.execution.blockedTaskIds.flatMap (validateBlockedReference state) ++
  state.execution.completedTaskIds.flatMap (validateCompletedReference state)

/-! ### What acceptance by the schema means -/

/-- All texts of a list are non-empty. -/
abbrev AllNonempty (texts : List String) : Prop := ∀ text ∈ texts, text ≠ ""

/-- An optional text is non-empty when present. -/
abbrev NonemptyIfPresent (text : Option String) : Prop := ∀ t, text = some t → t ≠ ""

/-- An optional text is a date-time when present. -/
abbrev DateTimeIfPresent (text : Option String) : Prop :=
  ∀ t, text = some t → Text.isIsoDateTime t = true

def BacklogTask.SchemaOk (task : BacklogTask) : Prop :=
  task.id ≠ "" ∧ task.featureId ≠ "" ∧ NonemptyIfPresent task.splitFromTaskId ∧ task.title ≠ "" ∧
    AllNonempty task.dependsOn ∧ AllNonempty task.acceptanceCriteria ∧
    AllNonempty task.affectedModules

def Epic.SchemaOk (epic : Epic) : Prop :=
  epic.id ≠ "" ∧ epic.title ≠ "" ∧ epic.goal ≠ "" ∧ AllNonempty epic.featureIds

def Feature.SchemaOk (feature : Feature) : Prop :=
  feature.id ≠ "" ∧ feature.epicId ≠ "" ∧ feature.title ≠ "" ∧ feature.outcome ≠ "" ∧
    AllNonempty feature.risks ∧ AllNonempty feature.taskIds

def Milestone.SchemaOk (milestone : Milestone) : Prop :=
  milestone.id ≠ "" ∧ milestone.title ≠ "" ∧ milestone.goal ≠ "" ∧ AllNonempty milestone.epicIds

def DecisionLogItem.SchemaOk (decision : DecisionLogItem) : Prop :=
  decision.id ≠ "" ∧ decision.title ≠ "" ∧ decision.decision ≠ "" ∧ decision.rationale ≠ "" ∧
    AllNonempty decision.affectedAreas ∧ Text.isIsoDateTime decision.createdAt = true

def FailureRecord.SchemaOk (failure : FailureRecord) : Prop :=
  failure.id ≠ "" ∧ failure.taskId ≠ "" ∧ failure.reason ≠ "" ∧ AllNonempty failure.symptoms ∧
    AllNonempty failure.badPatterns ∧ NonemptyIfPresent failure.checkpointRunId ∧
    NonemptyIfPresent failure.checkpointStepId ∧ DateTimeIfPresent failure.deadLetteredAt ∧
    DateTimeIfPresent failure.resumedAt ∧ DateTimeIfPresent failure.replayedAt ∧
    Text.isIsoDateTime failure.createdAt = true

def ArtifactRecord.SchemaOk (artifact : ArtifactRecord) : Prop :=
  artifact.id ≠ "" ∧ artifact.title ≠ "" ∧ NonemptyIfPresent artifact.location ∧
    (∀ value ∈ artifact.metadata.values, value ≠ "") ∧
    Text.isIsoDateTime artifact.createdAt = true

def ApprovalRequest.SchemaOk (request : ApprovalRequest) : Prop :=
  request.id ≠ "" ∧ request.runId ≠ "" ∧ request.taskId ≠ "" ∧ request.reason ≠ "" ∧
    (∀ value ∈ request.metadata.values, value ≠ "") ∧
    Text.isIsoDateTime request.createdAt = true ∧ DateTimeIfPresent request.approvedAt ∧
    NonemptyIfPresent request.approvedBy ∧ DateTimeIfPresent request.rejectedAt ∧
    NonemptyIfPresent request.rejectedBy ∧ NonemptyIfPresent request.rejectionReason ∧
    DateTimeIfPresent request.resumedAt ∧ NonemptyIfPresent request.resumedBy ∧
    DateTimeIfPresent request.completedAt

def ExecutionPolicyDecision.SchemaOk (decision : ExecutionPolicyDecision) : Prop :=
  decision.decisionId ≠ "" ∧ decision.tenantId ≠ "" ∧ decision.projectId ≠ "" ∧
    decision.runId ≠ "" ∧ decision.stepId ≠ "" ∧ AllNonempty decision.reasonCodes ∧
    Text.isIsoDateTime decision.decidedAt = true ∧ decision.decider ≠ "" ∧
    decision.inputHash ≠ "" ∧ decision.traceId ≠ "" ∧ decision.policyVersion ≠ "" ∧
    (decision.decision ≠ .allow → decision.reasonCodes ≠ [])

def RunStepLogEntry.SchemaOk (step : RunStepLogEntry) : Prop :=
  step.id ≠ "" ∧ step.tenantId ≠ "" ∧ step.projectId ≠ "" ∧ step.runId ≠ "" ∧ step.stepId ≠ "" ∧
    NonemptyIfPresent step.taskId ∧ step.role ≠ "" ∧ NonemptyIfPresent step.tool ∧
    NonemptyIfPresent step.policyDecisionId ∧ step.idempotencyKey ≠ "" ∧
    NonemptyIfPresent step.payloadRef ∧ step.checksum ≠ "" ∧ NonemptyIfPresent step.prevChecksum ∧
    step.traceId ≠ "" ∧ Text.isIsoDateTime step.createdAt = true

def DedupRegistryRecord.SchemaOk (entry : DedupRegistryRecord) : Prop :=
  entry.key ≠ "" ∧ entry.leaseOwner ≠ "" ∧ Text.isIsoDateTime entry.createdAt = true ∧
    Text.isIsoDateTime entry.updatedAt = true ∧ Text.isIsoDateTime entry.expiresAt = true ∧
    NonemptyIfPresent entry.policyDecisionId ∧ NonemptyIfPresent entry.evidenceId

def ExecutionState.SchemaOk (execution : ExecutionState) : Prop :=
  NonemptyIfPresent execution.activeTaskId ∧ NonemptyIfPresent execution.activeRunId ∧
    AllNonempty execution.completedTaskIds ∧ AllNonempty execution.blockedTaskIds ∧
    (∀ step ∈ execution.runStepLog, step.SchemaOk) ∧
    (∀ entry ∈ execution.dedupRegistry.values, entry.SchemaOk)

section Decides

/-- The equations that turn a concatenation of schema checks into the conjunction of
their conditions. -/
theorem append_nil_and {xs ys : List String} : xs ++ ys = [] ↔ xs = [] ∧ ys = [] :=
  List.append_eq_nil_iff

theorem decides_backlogTaskSchema : Decides backlogTaskSchema BacklogTask.SchemaOk := by
  intro path task
  simp only [backlogTaskSchema, BacklogTask.SchemaOk, append_nil_and, and_assoc, minOne_eq_nil_iff,
    each_eq_nil_iff decides_minOne, optionally_eq_nil_iff decides_minOne]

theorem decides_epicSchema : Decides epicSchema Epic.SchemaOk := by
  intro path epic
  simp only [epicSchema, Epic.SchemaOk, append_nil_and, and_assoc, minOne_eq_nil_iff,
    each_eq_nil_iff decides_minOne]

theorem decides_featureSchema : Decides featureSchema Feature.SchemaOk := by
  intro path feature
  simp only [featureSchema, Feature.SchemaOk, append_nil_and, and_assoc, minOne_eq_nil_iff,
    each_eq_nil_iff decides_minOne]

theorem decides_milestoneSchema : Decides milestoneSchema Milestone.SchemaOk := by
  intro path milestone
  simp only [milestoneSchema, Milestone.SchemaOk, append_nil_and, and_assoc, minOne_eq_nil_iff,
    each_eq_nil_iff decides_minOne]

theorem decides_decisionSchema : Decides decisionSchema DecisionLogItem.SchemaOk := by
  intro path decision
  simp only [decisionSchema, DecisionLogItem.SchemaOk, append_nil_and, and_assoc,
    minOne_eq_nil_iff, each_eq_nil_iff decides_minOne, isoDateTime_eq_nil_iff]

theorem decides_failureSchema : Decides failureSchema FailureRecord.SchemaOk := by
  intro path failure
  simp only [failureSchema, FailureRecord.SchemaOk, append_nil_and, and_assoc, minOne_eq_nil_iff,
    each_eq_nil_iff decides_minOne, optionally_eq_nil_iff decides_minOne,
    optionally_eq_nil_iff decides_isoDateTime, isoDateTime_eq_nil_iff]

theorem decides_artifactSchema : Decides artifactSchema ArtifactRecord.SchemaOk := by
  intro path artifact
  simp only [artifactSchema, ArtifactRecord.SchemaOk, append_nil_and, and_assoc,
    minOne_eq_nil_iff, eachValue_eq_nil_iff decides_minOne, optionally_eq_nil_iff decides_minOne,
    isoDateTime_eq_nil_iff]

theorem decides_approvalRequestSchema :
    Decides approvalRequestSchema ApprovalRequest.SchemaOk := by
  intro path request
  simp only [approvalRequestSchema, ApprovalRequest.SchemaOk, append_nil_and, and_assoc,
    minOne_eq_nil_iff, eachValue_eq_nil_iff decides_minOne, optionally_eq_nil_iff decides_minOne,
    optionally_eq_nil_iff decides_isoDateTime, isoDateTime_eq_nil_iff]

theorem decides_executionPolicyDecisionSchema :
    Decides executionPolicyDecisionSchema ExecutionPolicyDecision.SchemaOk := by
  intro path decision
  have hreasons : ∀ text : String,
      (if decision.decision ≠ .allow ∧ decision.reasonCodes = [] then [text] else []) = [] ↔
        (decision.decision ≠ .allow → decision.reasonCodes ≠ []) := by
    intro text
    split <;> simp_all
  simp only [executionPolicyDecisionSchema, ExecutionPolicyDecision.SchemaOk, append_nil_and,
    and_assoc, minOne_eq_nil_iff, each_eq_nil_iff decides_minOne, isoDateTime_eq_nil_iff, hreasons]

theorem decides_runStepLogEntrySchema :
    Decides runStepLogEntrySchema RunStepLogEntry.SchemaOk := by
  intro path step
  simp only [runStepLogEntrySchema, RunStepLogEntry.SchemaOk, append_nil_and, and_assoc,
    minOne_eq_nil_iff, optionally_eq_nil_iff decides_minOne, isoDateTime_eq_nil_iff]

theorem decides_dedupRecordSchema : Decides dedupRecordSchema DedupRegistryRecord.SchemaOk := by
  intro path entry
  simp only [dedupRecordSchema, DedupRegistryRecord.SchemaOk, append_nil_and, and_assoc,
    minOne_eq_nil_iff, optionally_eq_nil_iff decides_minOne, isoDateTime_eq_nil_iff]

theorem decides_executionStateSchema : Decides executionStateSchema ExecutionState.SchemaOk := by
  intro path execution
  simp only [executionStateSchema, ExecutionState.SchemaOk, append_nil_and, and_assoc,
    each_eq_nil_iff decides_minOne, optionally_eq_nil_iff decides_minOne,
    each_eq_nil_iff decides_runStepLogEntrySchema, eachValue_eq_nil_iff decides_dedupRecordSchema]

end Decides

/-- Acceptance by the deep schema. -/
structure ProjectState.SchemaOk (state : ProjectState) : Prop where
  org : state.orgId ≠ ""
  epics : ∀ epic ∈ state.backlog.epics.values, epic.SchemaOk
  features : ∀ feature ∈ state.backlog.features.values, feature.SchemaOk
  tasks : ∀ task ∈ state.backlog.tasks.values, task.SchemaOk
  milestones : ∀ milestone ∈ state.milestones.values, milestone.SchemaOk
  decisions : ∀ decision ∈ state.decisions, decision.SchemaOk
  failures : ∀ failure ∈ state.failures, failure.SchemaOk
  artifacts : ∀ artifact ∈ state.artifacts, artifact.SchemaOk
  approvals : ∀ request ∈ state.approvals, request.SchemaOk
  policyDecisions : ∀ decision ∈ state.policyDecisions, decision.SchemaOk
  execution : state.execution.SchemaOk

theorem projectStateDeepSchema_eq_nil_iff {state : ProjectState} :
    projectStateDeepSchema state = [] ↔ state.SchemaOk := by
  simp only [projectStateDeepSchema, append_nil_and, and_assoc, minOne_eq_nil_iff,
    eachValue_eq_nil_iff decides_epicSchema, eachValue_eq_nil_iff decides_featureSchema,
    eachValue_eq_nil_iff decides_backlogTaskSchema, eachValue_eq_nil_iff decides_milestoneSchema,
    each_eq_nil_iff decides_decisionSchema, each_eq_nil_iff decides_failureSchema,
    each_eq_nil_iff decides_artifactSchema, each_eq_nil_iff decides_approvalRequestSchema,
    each_eq_nil_iff decides_executionPolicyDecisionSchema,
    decides_executionStateSchema "execution" state.execution]
  constructor
  · rintro ⟨h₁, h₂, h₃, h₄, h₅, h₆, h₇, h₈, h₉, h₁₀, h₁₁⟩
    exact ⟨h₁, h₂, h₃, h₄, h₅, h₆, h₇, h₈, h₉, h₁₀, h₁₁⟩
  · rintro ⟨h₁, h₂, h₃, h₄, h₅, h₆, h₇, h₈, h₉, h₁₀, h₁₁⟩
    exact ⟨h₁, h₂, h₃, h₄, h₅, h₆, h₇, h₈, h₉, h₁₀, h₁₁⟩

/-! ### What acceptance of a state means -/

/-- A feature's references resolve. -/
def ProjectState.FeatureRefsOk (state : ProjectState) (feature : Feature) : Prop :=
  state.backlog.epics.Finds feature.epicId ∧
    ∀ taskId ∈ feature.taskIds, ∃ task, state.backlog.tasks.get? taskId = some task ∧
      task.featureId = feature.id

/-- A task's references resolve. -/
def ProjectState.TaskRefsOk (state : ProjectState) (task : BacklogTask) : Prop :=
  validateBacklogTask task = [] ∧
    (∀ parent, task.splitFromTaskId = some parent → parent ≠ "" →
      state.backlog.tasks.Finds parent) ∧
    ∀ dependency ∈ task.dependsOn, state.backlog.tasks.Finds dependency

/-- A blocked id names a blocked task with a failure or an artifact. -/
def ProjectState.BlockedRefOk (state : ProjectState) (taskId : String) : Prop :=
  ∃ task, state.backlog.tasks.get? taskId = some task ∧ task.status = .blocked ∧
    ((∃ failure ∈ state.failures, failure.taskId = taskId) ∨
      ∃ artifact ∈ state.artifacts, artifact.metadata.get? "taskId" = some taskId)

/-- A completed id names a done task. -/
def ProjectState.CompletedRefOk (state : ProjectState) (taskId : String) : Prop :=
  ∃ task, state.backlog.tasks.get? taskId = some task ∧ task.status = .done

/-- **Accepted state**: what `validateProjectState` asks, clause by clause. -/
structure ProjectState.Valid (state : ProjectState) : Prop where
  schema : state.SchemaOk
  discovery : validateProjectDiscovery state.discovery = []
  findings : ∀ finding ∈ state.architecture.findings, validateArchitectureFinding finding = []
  policyScope : ∀ decision ∈ state.policyDecisions,
    decision.tenantId = state.orgId ∧ decision.projectId = state.projectId
  analysisSummary : ∀ summary, state.architecture.analysisSummary = some summary →
    Text.isBlank summary = false
  currentMilestone : ∀ id, state.currentMilestoneId = some id → id ≠ "" →
    state.milestones.Finds id
  activeTask : ∀ id, state.execution.activeTaskId = some id → id ≠ "" →
    state.backlog.tasks.Finds id
  featureRefs : ∀ feature ∈ state.backlog.features.values, state.FeatureRefsOk feature
  epicRefs : ∀ epic ∈ state.backlog.epics.values, ∀ featureId ∈ epic.featureIds,
    state.backlog.features.Finds featureId
  taskRefs : ∀ task ∈ state.backlog.tasks.values, state.TaskRefsOk task
  oneInProgress : (state.milestones.values.filter fun milestone =>
    milestone.status = .inProgress).length ≤ 1
  blockedRefs : ∀ taskId ∈ state.execution.blockedTaskIds, state.BlockedRefOk taskId
  completedRefs : ∀ taskId ∈ state.execution.completedTaskIds, state.CompletedRefOk taskId

section Clauses

variable {state : ProjectState}

theorem ite_singleton_eq_nil {c : Prop} [Decidable c] {text : String} :
    (if c then [text] else []) = [] ↔ ¬ c := by
  split <;> simp_all

theorem validateFeatureReferences_eq_nil_iff {feature : Feature} :
    validateFeatureReferences state feature = [] ↔ state.FeatureRefsOk feature := by
  simp only [validateFeatureReferences, ProjectState.FeatureRefsOk, append_nil_and,
    ite_singleton_eq_nil, Record.finds_eq_false_iff, not_not, List.flatMap_eq_nil_iff]
  refine and_congr_right fun _ => forall₂_congr fun taskId _ => ?_
  cases state.backlog.tasks.get? taskId with
  | none =>
    refine iff_of_false ?_ (by simp)
    dsimp only
    split <;> simp
  | some task => simp

theorem validateEpicReferences_eq_nil_iff {epic : Epic} :
    validateEpicReferences state epic = [] ↔
      ∀ featureId ∈ epic.featureIds, state.backlog.features.Finds featureId := by
  simp only [validateEpicReferences, List.flatMap_eq_nil_iff, ite_singleton_eq_nil,
    Record.finds_eq_false_iff, not_not]

theorem validateTaskReferences_eq_nil_iff {task : BacklogTask} :
    validateTaskReferences state task = [] ↔ state.TaskRefsOk task := by
  simp only [validateTaskReferences, ProjectState.TaskRefsOk, append_nil_and, and_assoc,
    List.flatMap_eq_nil_iff, ite_singleton_eq_nil, Record.finds_eq_false_iff, not_not]
  refine and_congr_right fun _ => and_congr_left fun _ => ?_
  cases task.splitFromTaskId with
  | none => simp
  | some parent =>
    simp only [ite_singleton_eq_nil, Record.finds_eq_false_iff, not_and, not_not]
    exact ⟨fun h p hp => by cases hp; exact h, fun h => h parent rfl⟩

/-- A status is shown only for a task of the backlog. -/
theorem shownStatus_eq_some_iff {taskId : String} {status : BacklogTaskStatus} :
    shownStatus state taskId = some status ↔
      ∃ task, state.backlog.tasks.get? taskId = some task ∧ task.status = status := by
  rw [shownStatus, Option.map_eq_some_iff]

/-- A task whose status is shown is found. -/
theorem finds_of_shownStatus {taskId : String} {status : BacklogTaskStatus}
    (h : shownStatus state taskId = some status) : state.backlog.tasks.finds taskId = true := by
  obtain ⟨task, hget, -⟩ := shownStatus_eq_some_iff.mp h
  exact Record.finds_iff.mpr (Or.inl (Dict.mem_keys_of_get? hget))

theorem validateBlockedReference_eq_nil_iff {taskId : String} :
    validateBlockedReference state taskId = [] ↔ state.BlockedRefOk taskId := by
  unfold validateBlockedReference ProjectState.BlockedRefOk
  have hrecord : ¬ ((state.failures.any fun failure => failure.taskId = taskId) = false ∧
      (state.artifacts.any fun artifact => artifact.metadata.get? "taskId" = some taskId) =
        false) ↔
      (∃ failure ∈ state.failures, failure.taskId = taskId) ∨
        ∃ artifact ∈ state.artifacts, artifact.metadata.get? "taskId" = some taskId := by
    rw [not_and_or, Bool.not_eq_false, Bool.not_eq_false, List.any_eq_true, List.any_eq_true]
    simp only [decide_eq_true_eq]
  constructor
  · intro h
    split at h
    · cases h
    · rw [append_nil_and, ite_singleton_eq_nil, ite_singleton_eq_nil, not_not] at h
      obtain ⟨task, hget, hstatus⟩ := shownStatus_eq_some_iff.mp h.1
      exact ⟨task, hget, hstatus, hrecord.mp h.2⟩
  · rintro ⟨task, hget, hstatus, hon⟩
    have hshown := shownStatus_eq_some_iff.mpr ⟨task, hget, hstatus⟩
    rw [if_neg (by rw [finds_of_shownStatus hshown]; decide), append_nil_and, ite_singleton_eq_nil,
      ite_singleton_eq_nil, not_not]
    exact ⟨hshown, hrecord.mpr hon⟩

theorem validateCompletedReference_eq_nil_iff {taskId : String} :
    validateCompletedReference state taskId = [] ↔ state.CompletedRefOk taskId := by
  unfold validateCompletedReference ProjectState.CompletedRefOk
  rw [← shownStatus_eq_some_iff]
  constructor
  · intro h
    split at h
    · cases h
    · exact not_not.mp (ite_singleton_eq_nil.mp h)
  · intro hshown
    rw [if_neg (by rw [finds_of_shownStatus hshown]; decide)]
    exact ite_singleton_eq_nil.mpr (not_not.mpr hshown)

theorem validateExecutionPolicyDecision_eq_nil_iff {tenantId projectId : String}
    {decision : ExecutionPolicyDecision} :
    validateExecutionPolicyDecision tenantId projectId decision = [] ↔
      decision.SchemaOk ∧ decision.tenantId = tenantId ∧ decision.projectId = projectId := by
  simp only [validateExecutionPolicyDecision, append_nil_and, and_assoc,
    decides_executionPolicyDecisionSchema _ decision, ite_singleton_eq_nil, not_not]

end Clauses

/-- A check on an optional reference, as the states write it: an empty reference
counts as absent. -/
theorem optionalReference_eq_nil_iff {α : Type} {record : Record α} {reference : Option String}
    {text : String → String} :
    (match reference with
      | some id => if id ≠ "" ∧ record.finds id = false then [text id] else []
      | none => []) = [] ↔ ∀ id, reference = some id → id ≠ "" → record.Finds id := by
  cases reference with
  | none => simp
  | some id =>
    simp only [ite_singleton_eq_nil, Record.finds_eq_false_iff, not_and, not_not]
    exact ⟨fun h p hp => by cases hp; exact h, fun h => h id rfl⟩

/-- **Acceptance, characterised**: no issues exactly when all clauses of
`ProjectState.Valid` hold. -/
theorem validateProjectState_eq_nil_iff {state : ProjectState} :
    validateProjectState state = [] ↔ state.Valid := by
  have hsummary : (match state.architecture.analysisSummary with
      | some summary =>
        if Text.isBlank summary then
          ["Architecture analysisSummary must not be empty when present"] else []
      | none => []) = [] ↔
      ∀ summary, state.architecture.analysisSummary = some summary →
        Text.isBlank summary = false := by
    cases state.architecture.analysisSummary with
    | none => simp
    | some summary => simp
  simp only [validateProjectState, append_nil_and, and_assoc, projectStateDeepSchema_eq_nil_iff,
    List.flatMap_eq_nil_iff, hsummary, ite_singleton_eq_nil, not_lt,
    validateFeatureReferences_eq_nil_iff, validateEpicReferences_eq_nil_iff,
    validateTaskReferences_eq_nil_iff, validateBlockedReference_eq_nil_iff,
    validateCompletedReference_eq_nil_iff, validateExecutionPolicyDecision_eq_nil_iff,
    optionalReference_eq_nil_iff]
  constructor
  · rintro ⟨h₁, h₂, h₃, h₄, h₅, h₆, h₇, h₈, h₉, h₁₀, h₁₁, h₁₂, h₁₃⟩
    exact ⟨h₁, h₂, h₃, fun d hd => (h₄ d hd).2, h₅, h₆, h₇, h₈, h₉, h₁₀, h₁₁, h₁₂, h₁₃⟩
  · rintro ⟨h₁, h₂, h₃, h₄, h₅, h₆, h₇, h₈, h₉, h₁₀, h₁₁, h₁₂, h₁₃⟩
    exact ⟨h₁, h₂, h₃, fun d hd => ⟨h₁.policyDecisions d hd, h₄ d hd⟩, h₅, h₆, h₇, h₈, h₉, h₁₀, h₁₁,
      h₁₂, h₁₃⟩

/-- A fresh state of an organisation is valid. -/
theorem createEmpty_valid {orgId : Option String} (h : orgId ≠ some "")
    (projectId projectName summary : String) :
    (ProjectState.createEmpty orgId projectId projectName summary).Valid := by
  have horg : orgId.getD "default-org" ≠ "" := by
    cases orgId with
    | none => decide
    | some org => exact fun heq => h (congrArg some heq)
  have hdiscovery : validateProjectDiscovery
      (ProjectState.createEmpty orgId projectId projectName summary).discovery = [] := by
    have hblank : Text.isBlank "bootstrap_analysis" = false := by decide
    simp [validateProjectDiscovery, ProjectState.createEmpty, hblank]
  have hnone {α : Type} {p : α → Prop} : ∀ a ∈ ([] : List α), p a :=
    fun _ hmem => absurd hmem List.not_mem_nil
  have habsent {α : Type} {p : α → Prop} : ∀ a, (none : Option α) = some a → p a :=
    fun _ hsome => nomatch hsome
  have hschema : (ProjectState.createEmpty orgId projectId projectName summary).SchemaOk :=
    { org := horg, epics := hnone, features := hnone, tasks := hnone, milestones := hnone
      decisions := hnone, failures := hnone, artifacts := hnone, approvals := hnone
      policyDecisions := hnone
      execution := ⟨habsent, habsent, hnone, hnone, hnone, hnone⟩ }
  exact
    { schema := hschema, discovery := hdiscovery, findings := hnone, policyScope := hnone
      analysisSummary := habsent, currentMilestone := habsent, activeTask := habsent
      featureRefs := hnone, epicRefs := hnone, taskRefs := hnone, oneInProgress := Nat.zero_le 1
      blockedRefs := hnone, completedRefs := hnone }

end AiOrchestrator
