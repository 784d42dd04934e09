import AiOrchestrator.Core.Evidence
import AiOrchestrator.Execution.World

/-!
# Records of a run

The configuration of a run and the small programs by which every part of a run records
what it does: artifacts, events, steps (`run-step-recorder.ts`,
`append-run-step-evidence.ts`) and policy decisions (`policy-decision-recorder.ts`). Every
write goes through the lease guard (`lease-protected-state-store.ts`).
-/

namespace AiOrchestrator

inductive WorkspaceManagerMode
  | gitWorktree | static
deriving DecidableEq, Repr

/-- `RuntimeConfig`, as far as a run reads it. `repoRoot` is the first allowed write path,
resolved, or the working directory. -/
structure RuntimeConfig where
  workflow : RunLimits
  maxRoleStepsPerTask : Option Nat
  maxRoleWallTimeMs : Option Nat
  approvalGateEnabled : Bool
  approvalRequiredActions : Option (List ApprovalRequestedAction)
  approvalBulkFileThreshold : Option Nat
  workspaceManagerMode : WorkspaceManagerMode
  workspaceBranchTtlHours : Nat
  persistToolEvidence : Bool
  model : String
  fallbackModel : Option String
  roleModels : Record String
  tokenBudgetPerTask : Option Nat
  tokenBudgetPerRun : Option Nat
  maxRunCostUsdMicro : Option Nat
  modelCostPer1kTokensUsdMicro : Record Nat
  repoRoot : String
  tmpdir : String

/-- What the program is deployed with: the platform, the configuration, which of the
registered roles work step by step (have an `executeStep`), and whether the registry has
another task manager than `TaskManagerRole`. -/
structure Runtime where
  host : Host
  config : RuntimeConfig
  hasSteps : AgentRoleName → Bool
  replacesTaskManager : Bool

/-! ### Writes under the lease -/

/-- A write of `createLeaseProtectedStateStore`. -/
def guardedWrite (call : StoreCall) : Action call.Result := do
  request .requireValid
  request (.write call)

def recordArtifact (artifact : ArtifactRecord) : Action Unit :=
  guardedWrite (.recordArtifact artifact)

/-- `makeArtifact`. -/
def newArtifact (type : ArtifactType) (title : String) (metadata : List (String × String)) :
    Action ArtifactRecord := do
  let id ← request .randomUUID
  let createdAt ← request .now
  pure (makeArtifact id createdAt type title metadata)

/-- `makeEvent` of a run. -/
def newEvent (eventType : DomainEventType) (payload : List (String × Json Nat)) (runId : String) :
    Action DomainEvent := do
  let id ← request .randomUUID
  let createdAt ← request .now
  pure (makeEvent id createdAt eventType payload (some runId))

/-- Record an artifact and add it to the run's copy. -/
def recordAndPush (artifact : ArtifactRecord) : Action Unit := do
  recordArtifact artifact
  request (.update (.pushArtifact artifact))

def recordEvent (eventType : DomainEventType) (payload : List (String × Json Nat))
    (runId : String) : Action Unit := do
  let event ← newEvent eventType payload runId
  guardedWrite (.recordEvent event)

/-- `saveWithEvents` of the run's copy. -/
def saveWithEvents (events : List DomainEvent) : Action Unit := guardedWrite (.save events)

/-! ### Run steps -/

structure RecordRunStepInput where
  runId : String
  taskId : Option String
  role : String
  tool : Option String
  input : UnknownValue
  output : UnknownValue
  status : RunStepStatus
  durationMs : Nat

/-- The entry that `RunStepRecorder.record` and `appendRunStepEvidence` make. -/
def makeRunStep (host : Host) (stepId createdAt tenantId projectId : String)
    (previousChecksum : Option String) (input : RecordRunStepInput) : RunStepLogEntry :=
  let step : RunStepLogEntry :=
    { id := stepId, tenantId, projectId, runId := input.runId, stepId, attempt := 0
      taskId := presentText input.taskId, role := input.role, tool := presentText input.tool
      input := truncateText (safeStringify host input.input) 500
      output := truncateText (safeStringify host input.output) 500
      status := input.status, policyDecisionId := none
      idempotencyKey := s!"{input.runId}:{stepId}:0", payloadRef := none, checksum := ""
      prevChecksum := presentText previousChecksum, traceId := input.runId
      durationMs := input.durationMs, createdAt }
  { step with checksum := computeRunStepChecksum host step }

/-- **`RunStepRecorder.record`**. -/
def RunStepRecorder.record (host : Host) (input : RecordRunStepInput) : Action Unit := do
  let stepId ← request .randomUUID
  let shared ← request .readShared
  let previousChecksum := shared.recorder.checksumByRunId.get? input.runId
  let (tenantId, projectId) : String × String ←
    (if shared.recorder.buffer.isSome then
      pure (shared.recorder.tenantId, shared.recorder.projectId)
    else request .loadScope)
  let createdAt ← request .now
  let step := makeRunStep host stepId createdAt tenantId projectId previousChecksum input
  let revision ← guardedWrite (.recordRunStep step)
  request (.updateShared (.recorded step revision))

/-! ### Policy decisions -/

/-- `PersistPolicyDecisionInput`; the state is the run's copy. -/
structure PersistPolicyDecisionInput where
  runId : String
  taskId : String
  stepId : String
  attempt : Nat
  actionType : ExecutionPolicyActionType
  riskLevel : ExecutionPolicyRiskLevel
  inputHashSeed : String
  reasonCodes : List String

/-- `POLICY_VERSION`. -/
def policyVersion : String := "policyDecisionPersistenceV1"

/-- `createPolicyInputHash`. -/
def createPolicyInputHash (seed : String) : String := Text.sliceTo (Text.base64Url seed) 64

/-- The decision that `persistAndRequire` persists. -/
def makePolicyDecision (decisionId decidedAt : String) (state : ProjectState)
    (input : PersistPolicyDecisionInput) : ExecutionPolicyDecision where
  decisionId := decisionId
  tenantId := state.orgId
  projectId := state.projectId
  runId := input.runId
  stepId := input.stepId
  attempt := input.attempt
  actionType := input.actionType
  riskLevel := input.riskLevel
  decision := .allow
  reasonCodes := input.reasonCodes
  decidedAt := decidedAt
  decider := "orchestrator_policy_gate_v1"
  inputHash := createPolicyInputHash input.inputHashSeed
  traceId := input.runId
  policyVersion := policyVersion

/-- What `persistAndRequire` makes of the decision it reads back. -/
def requirePersisted (actionType : ExecutionPolicyActionType) (inputHash : String) :
    Option ExecutionPolicyDecision → Except RuntimeError Unit
  | none =>
    .error (.workflowPolicy
      s!"Persisted policy decision is missing for side-effect action: {actionType.text}")
  | some persisted =>
    if persisted.policyVersion ≠ policyVersion ∨ persisted.inputHash ≠ inputHash then
      .error (.workflowPolicy
        s!"Persisted policy decision is stale for side-effect action: {actionType.text}")
    else if persisted.decision ≠ .allow then
      .error (.workflowPolicy s!"Policy denied side-effect action: {actionType.text}")
    else .ok ()

/-- **`PolicyDecisionRecorder.persistAndRequire`**. -/
def PolicyDecisionRecorder.persistAndRequire (input : PersistPolicyDecisionInput) :
    Action Unit := do
  let decisionId ← request .randomUUID
  let state ← request .readState
  let decidedAt ← request .now
  let decision := makePolicyDecision decisionId decidedAt state input
  guardedWrite (.recordPolicyDecision decision)
  request (.update (.pushPolicyDecision decision))
  let persisted ← request (.getPolicyDecision
    { runId := input.runId, stepId := input.stepId, attempt := input.attempt
      actionType := input.actionType })
  Act.ofExcept (requirePersisted input.actionType decision.inputHash persisted)

/-- `buildPreflightPolicyGateDecisionRequest`. -/
def preflightPolicyGate (runId taskId : String) : PersistPolicyDecisionInput where
  runId := runId
  taskId := taskId
  stepId := s!"{taskId}:preflight_policy"
  attempt := 0
  actionType := .artifactWrite
  riskLevel := .low
  inputHashSeed := s!"{runId}:{taskId}:preflight"
  reasonCodes := ["NON_BYPASS_PREFLIGHT_CHECK"]

/-- `buildPostflightPolicyGateDecisionRequest`. -/
def postflightPolicyGate (runId taskId : String) : PersistPolicyDecisionInput where
  runId := runId
  taskId := taskId
  stepId := s!"{taskId}:postflight_policy"
  attempt := 0
  actionType := .artifactWrite
  riskLevel := .low
  inputHashSeed := s!"{runId}:{taskId}:postflight"
  reasonCodes := ["NON_BYPASS_POSTFLIGHT_CHECK"]

/-- `buildStepPolicyGateRequest`, at attempt 0. -/
def stepPolicyGate (runId taskId stepId : String) (actionType : ExecutionPolicyActionType)
    (inputHashSeed : String) (reasonCodes : List String) : PersistPolicyDecisionInput where
  runId := runId
  taskId := taskId
  stepId := stepId
  attempt := 0
  actionType := actionType
  riskLevel := classifyExecutionPolicyActionRisk actionType
  inputHashSeed := inputHashSeed
  reasonCodes := reasonCodes

end AiOrchestrator
