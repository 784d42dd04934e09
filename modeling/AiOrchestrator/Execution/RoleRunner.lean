import AiOrchestrator.Execution.Recorders

/-!
# Calling a role

`packages/execution/src/roles/role-runner.ts`: a role is called within its budgets, in one
go or step by step with tools in between; a response that fails the checks is asked for
once more. Telemetry is left out, as nothing reads it. Timeouts and aborted calls are among
the errors that an answer can contain; what the program itself looks at is the signal
(`aborted`) before a call.

The task manager of the default registry (`packages/agents/src/default-roles.ts`) is part of
the program; the other roles, and a task manager registered in its place, are part of the
surroundings.
-/

namespace AiOrchestrator

/-- `AgentRole`, for one request in one context. -/
structure AgentRole (name : AgentRoleName) where
  execute : Action (RoleResponse name)
  executeStep : Option (List RoleObservation → Action (RoleStepResult name))
  validate : RoleResponse name → Action Unit

/-- `context.abortSignal?.aborted`. -/
def signalAborted (context : RoleExecutionContext) : Action Bool :=
  if context.hasAbortSignal then request .aborted else pure false

/-- `runWithTimeout` under the signal of a context. -/
def runWithTimeout {α : Type} (context : RoleExecutionContext) (execute : Action α) :
    Action α := do
  let aborted ← signalAborted context
  if aborted then
    throw { cls := .stepCancelled true, message := "Operation cancelled by parent signal" }
  else execute

/-- `TaskManagerRole`: the task that `selectNextTask` picks from the run's copy. Its context has no
signal. -/
def taskManagerRole (host : Host) : AgentRole .taskManager where
  execute := do
    let state ← request .selectionState
    let entry := selectNextEntry host state
    pure
      { role := .taskManager
        summary :=
          match entry with
          | some (_, task) => s!"Selected {task.id}"
          | none => "No executable task"
        output := entry
        payload :=
          match entry with
          | some (_, task) => task.toJson
          | none => .null
        confidence := 1 }
  executeStep := none
  validate _ := pure ()

/-- `statusForRunStepFailure`. -/
def statusForRunStepFailure (error : RuntimeError) : RunStepStatus :=
  match error.cls with
  | .stepTimeout => .timedOut
  | .stepCancelled requested => if requested then .cancellationRequested else .cancelled
  | _ => .failed

namespace Runtime

variable (rt : Runtime)

/-- A role of the registry. -/
def registeredRole (name : AgentRoleName) (req : RoleRequest) (context : RoleExecutionContext) :
    AgentRole name where
  execute := runWithTimeout context (request (.executeRole name req context))
  executeStep :=
    if rt.hasSteps name then
      some fun observations =>
        runWithTimeout context (request (.executeRoleStep name req context observations))
    else none
  validate response := request (.validateRole name response)

/-- The task manager of the registry. -/
def taskManager (req : RoleRequest) (context : RoleExecutionContext) : AgentRole .taskManager :=
  if rt.replacesTaskManager then rt.registeredRole .taskManager req context
  else taskManagerRole rt.host

/-! ### Budgets -/

/-- `resolveModelForRole`. -/
def resolveModelForRole (role : AgentRoleName) : String :=
  match rt.config.roleModels.get? role.text with
  | some model =>
    if model ≠ "" then model else rt.config.fallbackModel.getD rt.config.model
  | none => rt.config.fallbackModel.getD rt.config.model

/-- A budget that is used up. -/
def exhausted (budget : Option Nat) (used : Nat) : Bool :=
  match budget with
  | some limit => limit ≤ used
  | none => false

/-- `enforceBudgets`. -/
def enforceBudgets (cost : RoleRunCostTracker) (model role : String) : Except RuntimeError Unit :=
  if exhausted rt.config.tokenBudgetPerTask cost.estimatedTokensTask then
    .error (.workflowPolicy
      s!"Token budget exceeded for task before role {role} using model {model}")
  else if exhausted rt.config.tokenBudgetPerRun cost.estimatedTokensRun then
    .error (.workflowPolicy
      s!"Token budget exceeded for run before role {role} using model {model}")
  else if exhausted rt.config.maxRunCostUsdMicro cost.estimatedCostUsdMicro then
    .error (.workflowPolicy
      s!"Run cost budget exceeded before role {role} using model {model}")
  else .ok ()

/-- `recordTokenAndCostUsage`. -/
def recordTokenUsage (model : String) (tokens : Nat) : Action Unit :=
  request (.updateShared (.tokenUsage tokens
    (rt.host.tokenCost tokens
      ((rt.config.modelCostPer1kTokensUsdMicro.get? model).getD 0))))

/-! ### Tools -/

/-- `executeTool`: the lease is required before the call. -/
def executeTool (call : ToolCallRequest) (context : RoleExecutionContext) :
    Action UnknownValue := do
  request .requireValid
  request (.executeTool call context)

/-- The run step of a tool call. -/
def toolStep (call : ToolCallRequest) (roleName : String) (context : RoleExecutionContext)
    (output : UnknownValue) (status : RunStepStatus) (durationMs : Nat) : RecordRunStepInput where
  runId := context.runId
  taskId := presentText context.taskId
  role := roleName
  tool := some call.toolName
  input := .json (.obj (call.input.set "workspaceRoot" (.str context.workspaceRoot)).entries)
  output := output
  status := status
  durationMs := durationMs

/-- `estimateObservationTokens` of a tool's output: `undefined` has no JSON text. -/
def estimateOutputTokens (output : UnknownValue) : Except RuntimeError Nat :=
  match output with
  | .undefined =>
    .error
      { cls := .typeError
        message := "Cannot read properties of undefined (reading 'length')" }
  | value => .ok (estimateTokens (safeStringify rt.host value))

/-- `invokeToolRequest`. -/
def invokeToolRequest (call : ToolCallRequest) (step : Nat) (roleName : String)
    (context : RoleExecutionContext) : Action RoleObservation := do
  let createdAt ← request .now
  let startedAt : Nat ← request .dateNow
  Act.catching
    (do
      let output ← runWithTimeout context (executeTool call context)
      let finishedAt : Nat ← request .dateNow
      RunStepRecorder.record rt.host
        (toolStep call roleName context output .succeeded (finishedAt - startedAt))
      -- The estimate goes to telemetry; that it can fail sends the call to the handler.
      let _ ← Act.ofExcept (rt.estimateOutputTokens output)
      pure { step, toolName := call.toolName, result := .ok output, createdAt })
    (fun error => do
      let finishedAt : Nat ← request .dateNow
      RunStepRecorder.record rt.host
        (toolStep call roleName context (.text error.message) (statusForRunStepFailure error)
          (finishedAt - startedAt))
      pure { step, toolName := call.toolName, result := .error error.message, createdAt })

/-! ### The action loop -/

/-- The payload of the events of the action loop. -/
def loopPayload (roleName : String) (taskId : Option String) (step : Nat) (toolName : String) :
    List (String × Json Nat) :=
  [("role", .str roleName),
    ("taskId", match taskId with | some id => .str id | none => .null),
    ("step", .num step), ("toolName", .str toolName)]

/-- One turn of the action loop: the tool is called, before and after which the loop
records events. -/
def observeTool (call : ToolCallRequest) (step : Nat) (roleName : String)
    (context : RoleExecutionContext) : Action RoleObservation := do
  let payload := loopPayload roleName context.taskId step call.toolName
  recordEvent .roleToolRequested (payload ++ [("rationale", .str call.rationale)]) context.runId
  let observation ← rt.invokeToolRequest call step roleName context
  let payload := payload ++ [("ok", .bool observation.ok)]
  recordEvent .roleObservationRecorded payload context.runId
  let evidence := payload ++ [("details", .str (summarizeObservation rt.host observation))]
  (if rt.config.persistToolEvidence then
    recordEvent .toolEvidenceRecorded evidence context.runId
  else pure ())
  pure observation

/-- The loop of `executeRoleWithLoop`, with the number of steps that remain. -/
def roleLoop {name : AgentRoleName}
    (executeStep : List RoleObservation → Action (RoleStepResult name))
    (context : RoleExecutionContext) (roleStartedAt : Nat) :
    (remaining step : Nat) → List RoleObservation → Action (RoleResponse name)
  | 0, _, _ =>
    throw (.workflowPolicy s!"Role {name.text} exceeded action loop step limit")
  | remaining + 1, step, observations => do
    let elapsedAt : Nat ← request .dateNow
    if exhausted rt.config.maxRoleWallTimeMs (elapsedAt - roleStartedAt) then
      throw (.workflowPolicy s!"Role {name.text} exhausted action loop wall-time budget")
    else do
      let aborted ← signalAborted context
      if aborted then
        throw (.workflowPolicy s!"Role {name.text} cancelled before step {step}")
      else do
        match ← executeStep observations with
        | .finalOutput response => pure response
        | .toolRequest call => do
          let observation ← rt.observeTool call step name.text context
          roleLoop executeStep context roleStartedAt remaining (step + 1)
            (observations ++ [observation])

/-- `executeRoleWithLoop`. -/
def executeRoleWithLoop {name : AgentRoleName} (role : AgentRole name)
    (context : RoleExecutionContext) : Action (RoleResponse name) :=
  match role.executeStep with
  | none => role.execute
  | some executeStep => do
    let roleStartedAt : Nat ← request .dateNow
    let stepLimit :=
      max 1 (rt.config.maxRoleStepsPerTask.getD rt.config.workflow.maxStepsPerRun)
    rt.roleLoop executeStep context roleStartedAt stepLimit 1 []

/-! ### Executing a role -/

/-- `validateRoleResult`. -/
def validateRoleResult {name : AgentRoleName} (response : RoleResponse name) :
    Except RuntimeError Unit :=
  let issues :=
    validateRoleResponse name response ++ RoleOutputSchemaRegistry.validate name response.output
  if issues ≠ [] then
    .error { cls := .schemaValidation, message := "Role response registry validation failed" }
  else .ok ()

/-- The run step of a role. -/
def roleStep (name : AgentRoleName) (req : RoleRequest) (context : RoleExecutionContext)
    (output : UnknownValue) (status : RunStepStatus) (durationMs : Nat) : RecordRunStepInput where
  runId := context.runId
  taskId := presentText context.taskId
  role := name.text
  tool := some "role.execute"
  input := .json req.input.toJson
  output := output
  status := status
  durationMs := durationMs

/-- The checks on a response: the role's own and the registry's. -/
def checkResponse {name : AgentRoleName} (role : AgentRole name) (response : RoleResponse name) :
    Action Unit := do
  role.validate response
  Act.ofExcept (validateRoleResult response)

/-- An accepted response is recorded and its tokens are counted. -/
def acceptResponse {name : AgentRoleName} (req : RoleRequest) (context : RoleExecutionContext)
    (model : String) (startedAt : Nat) (response : RoleResponse name) : Action Unit := do
  let finishedAt : Nat ← request .dateNow
  RunStepRecorder.record rt.host
    (roleStep name req context (.json response.payload) .succeeded (finishedAt - startedAt))
  rt.recordTokenUsage model (estimateTokens (rt.host.stringify response.payload))

/-- **`RoleRunner.execute`**. -/
def executeRole {name : AgentRoleName} (role : AgentRole name) (req : RoleRequest)
    (context : RoleExecutionContext) : Action (RoleResponse name) := do
  let startedAt : Nat ← request .dateNow
  let model := rt.resolveModelForRole req.role
  let cost : RoleRunCostTracker ← request .readCost
  Act.ofExcept (rt.enforceBudgets cost model req.role.text)
  rt.recordTokenUsage model (estimateTokens (rt.host.stringify req.input.toJson))
  let firstAttempt ← rt.executeRoleWithLoop role context
  Act.catching
    (do
      checkResponse role firstAttempt
      rt.acceptResponse req context model startedAt firstAttempt
      pure firstAttempt)
    (fun _ => do
      let secondAttempt ← rt.executeRoleWithLoop role context
      Act.catching (checkResponse role secondAttempt)
        (fun validationError => do
          let finishedAt : Nat ← request .dateNow
          RunStepRecorder.record rt.host
            (roleStep name req context (.text validationError.message) .failed
              (finishedAt - startedAt))
          throw
            { cls := .schemaValidation, message := "Role response schema validation failed" })
      rt.acceptResponse req context model startedAt secondAttempt
      pure secondAttempt)

end Runtime

end AiOrchestrator
