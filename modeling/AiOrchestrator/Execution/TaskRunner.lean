import AiOrchestrator.Execution.GitLifecycle
import AiOrchestrator.Execution.RoleRunner

/-!
# Running a task

`packages/execution/src/failure/failure-handler.ts` and
`packages/execution/src/task/task-runner.ts`: the prompt, the executing role, the review,
the tests, and then either the completion of the task with its git lifecycle or the
handling of a failure. Whatever happens, a summary of the costs is recorded at the end.
-/

namespace AiOrchestrator

inductive RunCycleStatus
  | idle | completed | blocked
deriving DecidableEq, Repr

structure RunCycleResult where
  runId : String
  taskId : Option String := none
  status : RunCycleStatus
  stopReason : Option String := none
deriving DecidableEq

/-- `RuntimeFailureRole`. -/
inductive RuntimeFailureRole
  | reviewer | tester
deriving DecidableEq, Repr

def RuntimeFailureRole.roleName : RuntimeFailureRole → AgentRoleName
  | .reviewer => .reviewer
  | .tester => .tester

/-- `runOutcome`. -/
inductive RunOutcome
  | completed | blocked | failed
deriving DecidableEq, Repr

def RunOutcome.text : RunOutcome → String
  | .completed => "completed"
  | .blocked => "blocked"
  | .failed => "failed"

namespace Runtime

variable (rt : Runtime)

/-! ### Failures -/

/-- `splitTaskForFailure`. -/
def splitTaskForFailure (handle : TaskHandle) (reason runId : String) : Action RunCycleResult := do
  let plan := splitTaskForRetry handle.task reason
  request (.update (.split handle plan))
  let artifactId : String ← request .randomUUID
  let artifactAt : String ← request .now
  let artifact := ProjectState.splitArtifact artifactId artifactAt handle.task.id reason plan
  let decisionId : String ← request .randomUUID
  let decisionAt : String ← request .now
  let decision := ProjectState.splitDecision decisionId decisionAt handle.task plan
  request (.update (.pushArtifact artifact))
  request (.update (.pushDecision decision))
  let taskSplitEvent ← newEvent .taskSplit
    [("taskId", .str handle.task.id),
      ("childTaskIds", jsonTexts (plan.childTasks.map BacklogTask.id)), ("reason", .str reason)]
    runId
  saveWithEvents [taskSplitEvent]
  pure { runId, taskId := some handle.task.id, status := .idle, stopReason := some "task_split" }

/-- `blockTaskForFailure`. -/
def blockTaskForFailure (handle : TaskHandle) (reason runId : String) : Action RunCycleResult := do
  request (.update (.block handle))
  let artifactId : String ← request .randomUUID
  let artifactAt : String ← request .now
  let artifact := ProjectState.escalationArtifact artifactId artifactAt handle.task.id reason
  request (.update (.pushArtifact artifact))
  recordArtifact artifact
  let taskBlockedEvent ← newEvent .taskBlocked
    [("taskId", .str handle.task.id), ("reason", .str reason)] runId
  saveWithEvents [taskBlockedEvent]
  pure { runId, taskId := some handle.task.id, status := .blocked, stopReason := some reason }

/-- What `handle` records of a failure. -/
def failureInput (taskId : String) (role : RuntimeFailureRole) (reason runId now : String)
    (action : FailureAction) : RecordFailureInput where
  taskId := taskId
  role := role.roleName
  reason := reason
  retrySuggested := some (action ≠ .block)
  status := some (if action = .block then .deadLettered else .retryable)
  checkpointRunId := some runId
  deadLetteredAt := if action = .block then some now else none

/-- **`FailureHandler.handle`**. -/
def handleFailure (handle : TaskHandle) (role : RuntimeFailureRole) (reason runId : String) :
    Action RunCycleResult := do
  let state : ProjectState ← request .readState
  let action := nextFailureAction handle.task (state.retryCount handle.task.id)
    rt.config.workflow.maxRetriesPerTask
  let now : String ← request .now
  let (failure, retryCount) : FailureRecord × Nat ←
    guardedWrite (.recordFailure (failureInput handle.task.id role reason runId now action))
  request (.update (.noteFailure handle.task.id failure retryCount))
  request .flush
  match action with
  | .split => splitTaskForFailure handle reason runId
  | .block => blockTaskForFailure handle reason runId
  | .retry => do
    saveWithEvents []
    pure { runId, taskId := some handle.task.id, status := .idle, stopReason := some reason }

/-! ### Policies and evidence -/

/-- The context of a role, `makeContext`: that of `TaskRunner` passes on the signal of the run, and
that of `Orchestrator` none. -/
def makeContext (role : AgentRoleName) (runId : String) (state : ProjectState)
    (workspaceRoot : String) (taskId : Option String) (hasAbortSignal : Bool) :
    RoleExecutionContext where
  runId := runId
  taskId := presentText taskId
  role := role
  stateSummary := summarizeState state
  canWriteRepo := roleCanWriteRepo role
  policy := roleToolPolicy role
  permissionScope := rolePermissionScope role
  workspaceRoot := workspaceRoot
  policyRules := defaultRulesByPolicy (roleToolPolicy role)
  hasAbortSignal := hasAbortSignal

/-- `listWorkspaceChangedFiles`. -/
def listWorkspaceChangedFiles (workspaceRoot : String) : Action (List String) := do
  match ← tryGit (.statusPorcelain workspaceRoot) with
  | none => pure []
  | some stdout =>
    let lines := ((Text.splitOnChar '\n' stdout).map Text.trim).filter fun line =>
      3 < Text.utf16Length line
    pure ((lines.map fun line => Text.trim (Text.sliceFrom line 3)).filter (· ≠ ""))

/-- Whether a path lies in a directory. -/
def liesIn (filePath directory : String) : Bool :=
  filePath = directory || Text.startsWith filePath (directory ++ "/")

/-- The check of `enforceExecutionPolicy` on the changed files. -/
def checkChangedFiles (rules : ExecutionPolicyRule) (role : AgentRoleName)
    (changedFiles : List String) : Except RuntimeError Unit :=
  if rules.maxChangedFiles < changedFiles.length then
    .error (.workflowPolicy <|
      s!"Policy maxChangedFiles exceeded for {role.text}: " ++
        s!"{changedFiles.length} > {rules.maxChangedFiles}")
  else
    match changedFiles.find? fun filePath => rules.forbiddenDirectories.any (liesIn filePath) with
    | some forbiddenHit =>
      .error (.workflowPolicy
        s!"Policy forbiddenDirectories violation for {role.text}: {forbiddenHit}")
    | none => .ok ()

/-- `enforceExecutionPolicy`. -/
def enforceExecutionPolicy (context : RoleExecutionContext) : Action Unit := do
  let changedFiles ← listWorkspaceChangedFiles context.workspaceRoot
  Act.ofExcept (checkChangedFiles context.policyRules context.role changedFiles)

/-- `enforceRequiredChecks`. -/
def enforceRequiredChecks (rules : ExecutionPolicyRule)
    (qualityStages : Option (List QualityStageResult)) : Except RuntimeError Unit :=
  match qualityStages with
  | none | some [] => .ok ()
  | some stages =>
    let passedStages := (stages.filter fun stage => stage.status = .passing).map fun stage =>
      stage.stage.text
    let missing := rules.requiredChecks.filter fun check => !passedStages.contains check
    if missing ≠ [] then
      .error (.workflowPolicy <|
        "Policy requiredChecks not satisfied: " ++ String.intercalate ", " missing)
    else .ok ()

/-- `enforceCompletionEvidence`. -/
def enforceCompletionEvidence (task : BacklogTask) (output : CodeExecutionView) :
    Except RuntimeError String :=
  match output.summary with
  | none =>
    .error { cls := .typeError, message := "Cannot read properties of undefined (reading 'trim')" }
  | some summary =>
    if Text.isBlank summary then
      .error (.workflowPolicy s!"Task {task.id} cannot complete without execution summary")
    else if output.changed then
      if output.changedFiles.length = 0 ∨ output.evidence.length = 0 then
        .error (.workflowPolicy s!"Task {task.id} cannot complete without mutation evidence")
      else .ok summary
    else if missingText output.noOpReason then
      .error (.workflowPolicy s!"Task {task.id} cannot complete without explicit no-op reason")
    else .ok summary

/-- The metadata of the report about a quality stage. -/
def qualityStageMetadata (runId taskId : String) (stage : QualityStageResult) :
    List (String × String) :=
  let diagnostics :=
    if stage.diagnostics.length > 0 then String.intercalate " | " stage.diagnostics else "none"
  [("runId", runId), ("taskId", taskId), ("stage", stage.stage.text),
    ("status", stage.status.text), ("diagnostics", truncateText diagnostics 250)]

/-- `persistQualityStageArtifacts`. -/
def persistQualityStageArtifacts (runId taskId : String)
    (qualityStages : Option (List QualityStageResult)) : Action Unit :=
  Act.forEach
    (fun stage =>
      recordNew .report s!"Quality stage {stage.stage.text} for {taskId}"
        (qualityStageMetadata runId taskId stage))
    (qualityStages.getD [])

/-! ### The stages of a run -/

/-- What a run of a task is given: `WorkspaceRunContext`. -/
structure TaskRun where
  handle : TaskHandle
  runId : String
  workspaceRoot : String
  branchName : Option String

section Stages

variable (run : TaskRun)

/-- Call a role of the registry about the task. -/
def callRole (name : AgentRoleName) (objective : String) (input : RoleInput)
    (acceptanceCriteria : List String) : Action (RoleResponse name) := do
  let state : ProjectState ← request .readState
  let context :=
    makeContext name run.runId state run.workspaceRoot (some run.handle.task.id) true
  let req : RoleRequest := { role := name, objective, input, acceptanceCriteria }
  rt.executeRole (rt.registeredRole name req context) req context

/-- The stage of the prompt engineer. -/
def optimizePrompt : Action OptimizedPrompt := do
  let task := run.handle.task
  let state : ProjectState ← request .readState
  let failures := state.failures.filter fun failure => failure.taskId = task.id
  let promptResponse ← rt.callRole run .promptEngineer "Optimize task prompt"
    (.prompt task (summarizeState state) failures
      (RoleOutputSchemaRegistry.getSchema (routeTaskToRole task)))
    ["Prompt includes acceptance criteria and failure constraints"]
  let prompt : OptimizedPrompt := promptResponse.output
  recordEvent .promptGenerated [("taskId", .str task.id), ("promptId", .str prompt.id)] run.runId
  recordNew .optimizedPrompt s!"Prompt for {task.id}"
    [("taskId", task.id), ("promptId", prompt.id)]
  pure prompt

/-- The stage of the executing role: its response. -/
def executeTask (prompt : OptimizedPrompt) :
    Action (RoleResponse (routeTaskToRole run.handle.task)) := do
  let task := run.handle.task
  let roleName := routeTaskToRole task
  let executionResponse ← rt.callRole run roleName s!"Execute {task.id}" (.execute task prompt)
    task.acceptanceCriteria
  let state : ProjectState ← request .readState
  enforceExecutionPolicy
    (makeContext roleName run.runId state run.workspaceRoot (some task.id) true)
  recordEvent .roleExecuted [("taskId", .str task.id), ("role", .str roleName.text)] run.runId
  pure executionResponse

/-- The review: whether the task may go on. -/
def reviewTask (result : Json Nat) : Action Bool := do
  let task := run.handle.task
  let response ← rt.callRole run .reviewer s!"Review {task.id}" (.judge task result)
    ["Approve or return blocking issues"]
  let review : ReviewResult := response.output
  if !review.approved || review.blockingIssues.length > 0 then do
    recordEvent .reviewRejected [("taskId", .str task.id)] run.runId
    pure false
  else do
    recordEvent .reviewApproved [("taskId", .str task.id)] run.runId
    pure true

/-- The tests: whether the task may go on. -/
def testTask (result : Json Nat) : Action Bool := do
  let task := run.handle.task
  let response ← rt.callRole run .tester s!"Test {task.id}" (.judge task result)
    ["Return explicit evidence"]
  let testing : TestExecutionResult := response.output
  if !testing.passed || testing.failures.length > 0 then do
    request (.update (.repoHealth testing.qualityStages false))
    persistQualityStageArtifacts run.runId task.id testing.qualityStages
    recordEvent .testFailed [("taskId", .str task.id)] run.runId
    pure false
  else do
    request (.update (.repoHealth testing.qualityStages true))
    Act.ofExcept (enforceRequiredChecks (defaultRulesByPolicy (roleToolPolicy .tester))
      testing.qualityStages)
    persistQualityStageArtifacts run.runId task.id testing.qualityStages
    recordEvent .testPassed [("taskId", .str task.id)] run.runId
    pure true

/-- The completion of the task: its bookkeeping, its summaries, its git lifecycle, and the
save of the run's copy. What is measured after the save is left out, so that it cannot fail a run
that has saved. -/
def completeTask (summary : String) : Action (RunCycleResult × RunOutcome) := do
  let task := run.handle.task
  request (.update (.complete run.handle))
  let taskSummaryArtifact ← newArtifact .runSummary s!"Task {task.id} completion summary"
    [("taskId", task.id), ("summary", summary)]
  let runSummaryArtifact ← newArtifact .runSummary s!"Run summary for {task.id}"
    [("runId", run.runId), ("taskId", task.id), ("status", "completed")]
  recordArtifact taskSummaryArtifact
  recordArtifact runSummaryArtifact
  request (.update (.pushArtifact taskSummaryArtifact))
  request (.update (.pushArtifact runSummaryArtifact))
  let gitLifecycleStatus ← rt.completeGitLifecycle
    { runId := run.runId, taskId := task.id, taskTitle := task.title
      branchName := run.branchName, workspaceRoot := run.workspaceRoot }
  PolicyDecisionRecorder.persistAndRequire (postflightPolicyGate run.runId task.id)
  let stateCommittedEvent ← newEvent .stateCommitted [("taskId", .str task.id)] run.runId
  request .flush
  saveWithEvents [stateCommittedEvent]
  match gitLifecycleStatus with
  | .approvalPending =>
    pure ({ runId := run.runId, taskId := some task.id, status := .blocked
            stopReason := some "approval_pending" }, .blocked)
  | .ok =>
    pure ({ runId := run.runId, taskId := some task.id, status := .completed }, .completed)

/-- The `try` block of `TaskRunner.run`: the result of the run and its outcome. -/
def runTaskBody : Action (RunCycleResult × RunOutcome) := do
  let task := run.handle.task
  request (.update (.select run.runId task.id))
  recordEvent .taskSelected [("taskId", .str task.id)] run.runId
  PolicyDecisionRecorder.persistAndRequire (preflightPolicyGate run.runId task.id)
  let prompt ← rt.optimizePrompt run
  let executionResponse ← rt.executeTask run prompt
  let approved ←
    (if requiresReview task then rt.reviewTask run executionResponse.payload else pure true)
  if !approved then do
    let result ← rt.handleFailure run.handle .reviewer "review_rejected" run.runId
    pure (result, .failed)
  else do
    let passed ←
      (if requiresTesting task then rt.testTask run executionResponse.payload else pure true)
    if !passed then do
      let result ← rt.handleFailure run.handle .tester "test_failed" run.runId
      pure (result, .failed)
    else do
      let summary ← Act.ofExcept (enforceCompletionEvidence task
        (asCodeExecutionOutput (routeTaskToRole task) executionResponse.output))
      rt.completeTask run summary

/-- The metadata of the cost summary. -/
def costMetadata (runId taskId : String) (outcome : RunOutcome) (cost : RoleRunCostTracker) :
    List (String × String) :=
  [("runId", runId), ("taskId", taskId), ("status", outcome.text),
    ("estimatedTokensRun", toString cost.estimatedTokensRun),
    ("estimatedTokensTask", toString cost.estimatedTokensTask),
    ("estimatedCostUsdMicro", toString cost.estimatedCostUsdMicro),
    ("estimationMethod", "heuristic_chars_div_4")]

/-- `recordRunCostSummaryArtifact`: a record that fails is ignored. -/
def recordRunCostSummary (outcome : RunOutcome) : Action Unit := do
  let shared : Shared ← request .readShared
  let taskId := run.handle.task.id
  let artifact ← newArtifact .runSummary s!"Run cost summary for {taskId}"
    (costMetadata run.runId taskId outcome shared.cost)
  Act.ignoring (recordArtifact artifact)
  request (.update (.pushArtifact artifact))

/-- **`TaskRunner.run`**. -/
def runTask : Action RunCycleResult := do
  let state : ProjectState ← request .readState
  request (.updateShared (.startRun run.runId state.orgId state.projectId))
  request (.updateShared .resetTask)
  let (result, _) ← Act.finallyDo (rt.runTaskBody run) fun outcome => do
    let runOutcome :=
      match outcome with
      | .ok (_, runOutcome) => runOutcome
      | .error _ => .failed
    recordRunCostSummary run runOutcome
    request (.updateShared .clearBuffer)
  pure result

end Stages

end Runtime

end AiOrchestrator
