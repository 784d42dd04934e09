import AiOrchestrator.Workflow.Bookkeeping

/-!
# The state store

The writes of `InMemoryStateStore` as functions on its snapshot
(`packages/state/src/in-memory/InMemoryStateStore.ts`, `revision.ts`,
`failure-record.ts`). A write is one step: the store's mutation queue runs them one
after the other. Each returns the next snapshot or the error it throws, and an error
leaves the snapshot as it was.

Whether a write is admitted is decided by `commitSnapshot`: the written state has to be
accepted by `validateProjectState`, and the revision its writer expects has to be the one
the store is at. `recordRunStep` alone writes without this check and without a new
revision.
-/

namespace AiOrchestrator

/-- `assertProjectState`. -/
def assertProjectState (state : ProjectState) : Except RuntimeError Unit :=
  if validateProjectState state = [] then .ok ()
  else .error (.stateIntegrity "Project state failed validation")

theorem assertProjectState_of_valid {state : ProjectState} (h : validateProjectState state = []) :
    assertProjectState state = .ok () :=
  if_pos h

theorem assertProjectState_of_not {state : ProjectState} (h : validateProjectState state ≠ []) :
    assertProjectState state = .error (.stateIntegrity "Project state failed validation") :=
  if_neg h

structure RecordFailureInput where
  taskId : String
  role : AgentRoleName
  reason : String
  symptoms : Option (List String) := none
  badPatterns : Option (List String) := none
  retrySuggested : Option Bool := none
  status : Option FailureStatus := none
  checkpointRunId : Option String := none
  checkpointStepId : Option String := none
  deadLetteredAt : Option String := none

/-- `buildFailureRecord` with the id and the time it draws. -/
def buildFailureRecord (id createdAt : String) (input : RecordFailureInput) : FailureRecord where
  id := id
  taskId := input.taskId
  role := input.role
  reason := input.reason
  symptoms := input.symptoms.getD []
  badPatterns := input.badPatterns.getD []
  retrySuggested := input.retrySuggested.getD true
  status := input.status
  checkpointRunId := input.checkpointRunId
  checkpointStepId := input.checkpointStepId
  deadLetteredAt := input.deadLetteredAt
  resumedAt := none
  replayedAt := none
  createdAt := createdAt

/-- `PolicyDecisionQuery`. -/
structure PolicyDecisionQuery where
  runId : String
  stepId : String
  attempt : Nat
  actionType : ExecutionPolicyActionType
deriving DecidableEq

/-- `RUN_STEP_TRANSITION_TABLE`. -/
def getAllowedRunStepTransitions : RunStepStatus → List RunStepStatus
  | .succeeded | .failed | .timedOut | .cancelled | .compensated => []
  | .cancellationRequested => [.cancelled, .compensationPending]
  | .compensationPending => [.compensated, .failed]

/-- `assertRunStepTransitionAllowed`. -/
def assertRunStepTransitionAllowed (previousStatus : Option RunStepStatus)
    (nextStatus : RunStepStatus) : Except RuntimeError Unit :=
  match previousStatus with
  | none => .ok ()
  | some previous =>
    if nextStatus ∈ getAllowedRunStepTransitions previous then .ok ()
    else
      .error (.stateIntegrity "Illegal run step status transition"
        (some "ILLEGAL_RUN_STEP_TRANSITION"))

namespace InMemoryStateStore

/-- **`commitSnapshot`**: the next snapshot, at the next revision. -/
def commitSnapshot (current state : ProjectState) (expectedRevision : Option Nat) :
    Except RuntimeError ProjectState := do
  assertProjectState state
  if expectedRevision.getD state.revision ≠ current.revision then
    throw stateRevisionConflict
  let next := { state with revision := current.revision + 1 }
  assertProjectState next
  pure next

/-- **`recordFailure`** with the id and the time it draws. -/
def recordFailure (current : ProjectState) (id createdAt : String) (input : RecordFailureInput)
    (expectedRevision : Option Nat) :
    Except RuntimeError (ProjectState × FailureRecord × Nat) := do
  if (current.backlog.tasks.get? input.taskId).isNone then
    throw (.stateStore s!"Cannot record failure for missing task {input.taskId}")
  let failure := buildFailureRecord id createdAt input
  let next ← commitSnapshot current (current.countFailure failure) expectedRevision
  pure (next, failure, current.retryCount input.taskId + 1)

/-- Add an artifact unless one with its id is there. -/
def addArtifact (current : ProjectState) (artifact : ArtifactRecord) : ProjectState :=
  if current.artifacts.any fun item => item.id = artifact.id then current
  else { current with artifacts := current.artifacts ++ [artifact] }

/-- **`recordArtifact`**. -/
def recordArtifact (current : ProjectState) (artifact : ArtifactRecord)
    (expectedRevision : Option Nat) : Except RuntimeError ProjectState :=
  if ArtifactSchemaRegistry.validate artifact ≠ [] then
    .error (.stateStore "Artifact schema validation failed")
  else commitSnapshot current (addArtifact current artifact) expectedRevision

/-- **`recordPolicyDecision`**. -/
def recordPolicyDecision (current : ProjectState) (decision : ExecutionPolicyDecision)
    (expectedRevision : Option Nat) : Except RuntimeError ProjectState :=
  commitSnapshot current
    { current with policyDecisions := current.policyDecisions ++ [decision] } expectedRevision

/-- **`getPolicyDecision`**: the latest decision that matches the query. -/
def getPolicyDecision (current : ProjectState) (query : PolicyDecisionQuery) :
    Option ExecutionPolicyDecision :=
  current.policyDecisions.reverse.find? fun item =>
    item.runId = query.runId && item.stepId = query.stepId && item.attempt = query.attempt &&
      item.actionType = query.actionType

/-- The latest entry of the log for the same run, step and attempt. -/
def previousRunStep (host : Host) (current : ProjectState) (step : RunStepLogEntry) :
    Option RunStepLogEntry :=
  let matching := current.execution.runStepLog.filter fun entry =>
    entry.runId = step.runId && entry.stepId = step.stepId && entry.attempt = step.attempt
  (matching.insertionSort fun left right =>
    host.localeCompare right.createdAt left.createdAt ≠ .gt).head?

/-- **`recordRunStep`**: appends to the log of the snapshot; its revision stays. -/
def recordRunStep (host : Host) (current : ProjectState) (step : RunStepLogEntry) :
    Except RuntimeError ProjectState := do
  if step.tenantId ≠ current.orgId ∨ step.projectId ≠ current.projectId then
    throw (.stateStore "TENANT_PARTITION_GUARD_VIOLATION")
  assertRunStepTransitionAllowed
    ((previousRunStep host current step).map RunStepLogEntry.status) step.status
  let next := { current with
    execution := { current.execution with
      runStepLog := current.execution.runStepLog ++ [step] } }
  assertProjectState next
  pure next

/-- **`markTaskDone`** with the id and the time of its summary artifact. -/
def markTaskDone (current : ProjectState) (id createdAt taskId summary : String)
    (expectedRevision : Option Nat) : Except RuntimeError ProjectState := do
  if (current.backlog.tasks.get? taskId).isNone then
    throw (.stateStore s!"Cannot mark missing task {taskId} as done")
  let summaryArtifact := taskSummaryArtifact id createdAt taskId summary
  if ArtifactSchemaRegistry.validate summaryArtifact ≠ [] then
    throw (.stateStore "Artifact schema validation failed")
  commitSnapshot current (current.markTaskDone taskId summaryArtifact) expectedRevision

/-! ### What a successful write says -/

variable {current state next : ProjectState} {expectedRevision : Option Nat}

/-- The checks on a state do not look at its revision. -/
theorem validateProjectState_revision (state : ProjectState) (revision : Nat) :
    validateProjectState { state with revision := revision } = validateProjectState state := rfl

theorem commitSnapshot_eq (current state : ProjectState) (expectedRevision : Option Nat) :
    commitSnapshot current state expectedRevision =
      if validateProjectState state ≠ [] then
        .error (.stateIntegrity "Project state failed validation")
      else if expectedRevision.getD state.revision ≠ current.revision then
        .error stateRevisionConflict
      else .ok { state with revision := current.revision + 1 } := by
  unfold commitSnapshot
  by_cases hvalid : validateProjectState state = []
  · rw [assertProjectState_of_valid hvalid, if_neg (not_not.mpr hvalid)]
    by_cases hrevision : expectedRevision.getD state.revision = current.revision
    · have hnext := (validateProjectState_revision state (current.revision + 1)).trans hvalid
      rw [if_neg (not_not.mpr hrevision), if_neg (not_not.mpr hrevision)]
      simp only [assertProjectState_of_valid hnext]
      rfl
    · rw [if_pos hrevision, if_pos hrevision]
      rfl
  · rw [assertProjectState_of_not hvalid, if_pos hvalid]
    rfl

/-- **Commits**: a committed snapshot is the written state at the next revision; it is
accepted, and its writer expected the revision the store was at. -/
theorem commitSnapshot_ok_iff :
    commitSnapshot current state expectedRevision = .ok next ↔
      state.Valid ∧ expectedRevision.getD state.revision = current.revision ∧
        next = { state with revision := current.revision + 1 } := by
  rw [commitSnapshot_eq, ← validateProjectState_eq_nil_iff]
  by_cases hvalid : validateProjectState state = []
  · by_cases hrevision : expectedRevision.getD state.revision = current.revision
    · rw [if_neg (by simpa using hvalid), if_neg (by simpa using hrevision), Except.ok.injEq]
      simp only [hvalid, hrevision, true_and]
      exact eq_comm
    · rw [if_neg (by simpa using hvalid), if_pos hrevision]
      simp [hrevision]
  · rw [if_pos hvalid]
    simp [hvalid]

theorem recordFailure_ok_iff {id createdAt : String} {input : RecordFailureInput}
    {failure : FailureRecord} {retryCount : Nat} :
    recordFailure current id createdAt input expectedRevision = .ok (next, failure, retryCount) ↔
      input.taskId ∈ current.backlog.tasks.keys ∧
        failure = buildFailureRecord id createdAt input ∧
        retryCount = current.retryCount input.taskId + 1 ∧
        commitSnapshot current (current.countFailure failure) expectedRevision = .ok next := by
  unfold recordFailure
  rw [← Dict.isSome_get?_iff]
  cases hget : current.backlog.tasks.get? input.taskId with
  | none =>
    constructor
    · intro h
      cases h
    · rintro ⟨h, -⟩
      cases h
  | some task =>
    cases hcommit : commitSnapshot current
        (current.countFailure (buildFailureRecord id createdAt input)) expectedRevision with
    | error e =>
      constructor
      · intro h
        simp [hcommit] at h
      · rintro ⟨-, rfl, -, h⟩
        rw [hcommit] at h
        cases h
    | ok next' =>
      constructor
      · intro h
        simp only [hcommit] at h
        cases h
        exact ⟨rfl, rfl, rfl, hcommit⟩
      · rintro ⟨-, rfl, rfl, h⟩
        rw [hcommit] at h
        cases h
        simp only [hcommit]
        rfl

theorem recordArtifact_ok_iff {artifact : ArtifactRecord} :
    recordArtifact current artifact expectedRevision = .ok next ↔
      ArtifactSchemaRegistry.validate artifact = [] ∧
        commitSnapshot current (addArtifact current artifact) expectedRevision = .ok next := by
  unfold recordArtifact
  by_cases hvalid : ArtifactSchemaRegistry.validate artifact = [] <;> simp [hvalid]

/-- The snapshot with a run step appended to its log. -/
def withRunStep (current : ProjectState) (step : RunStepLogEntry) : ProjectState :=
  { current with
    execution := { current.execution with
      runStepLog := current.execution.runStepLog ++ [step] } }

/-- Run steps: one of this tenant and project, with a status that may follow the latest one of
its step and attempt, is appended, unless the log is then refused. -/
theorem recordRunStep_ok_iff {host : Host} {step : RunStepLogEntry} :
    recordRunStep host current step = .ok next ↔
      step.tenantId = current.orgId ∧ step.projectId = current.projectId ∧
        assertRunStepTransitionAllowed
          ((previousRunStep host current step).map RunStepLogEntry.status) step.status = .ok () ∧
        (withRunStep current step).Valid ∧ next = withRunStep current step := by
  unfold recordRunStep
  by_cases hpartition : step.tenantId ≠ current.orgId ∨ step.projectId ≠ current.projectId
  · rw [if_pos hpartition]
    constructor
    · intro h
      cases h
    · rintro ⟨horg, hproject, -⟩
      rcases hpartition with h | h
      · exact absurd horg h
      · exact absurd hproject h
  · rw [if_neg hpartition]
    simp only [not_or, not_not] at hpartition
    cases hallowed : assertRunStepTransitionAllowed
        ((previousRunStep host current step).map RunStepLogEntry.status) step.status with
    | error e =>
      constructor
      · intro h
        cases h
      · rintro ⟨-, -, h, -⟩
        cases h
    | ok _ =>
      rw [← validateProjectState_eq_nil_iff]
      by_cases hvalid : validateProjectState (withRunStep current step) = []
      · have hassert := assertProjectState_of_valid hvalid
        unfold withRunStep at hassert hvalid ⊢
        simp only [hassert, hpartition, hvalid, true_and]
        exact ⟨fun h => (Except.ok.inj h).symm, fun h => congrArg Except.ok h.symm⟩
      · have hassert := assertProjectState_of_not hvalid
        unfold withRunStep at hassert hvalid ⊢
        simp only [hassert]
        constructor
        · intro h
          cases h
        · rintro ⟨-, -, -, h, -⟩
          exact absurd h hvalid

/-- An appended run step changes the log alone. -/
theorem recordRunStep_ok {host : Host} {step : RunStepLogEntry}
    (h : recordRunStep host current step = .ok next) :
    next = withRunStep current step ∧ next.Valid := by
  obtain ⟨-, -, -, hvalid, rfl⟩ := recordRunStep_ok_iff.mp h
  exact ⟨rfl, hvalid⟩

end InMemoryStateStore

end AiOrchestrator
