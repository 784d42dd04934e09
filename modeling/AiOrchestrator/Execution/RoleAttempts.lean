import AiOrchestrator.Execution.RoleRunner

/-!
# The attempts of a role

`RoleRunner.execute` (`packages/execution/src/roles/role-runner.ts`) with everything that it waits
for and that can fail: telemetry, the checks of the role, and the record of the step. A role is
executed by `executeRoleWithLoop`, here one call with any answer; the loop itself is modelled with
the run of a task (`Runtime.executeRoleWithLoop`).
-/

namespace AiOrchestrator

/-- What `telemetry.incrementCounter` is given. -/
structure TelemetryCounter where
  name : String
  value : Option Nat := none
  runId : String
  tags : List (String × String)

namespace RoleRunner

/-- What tokens are estimated for. -/
inductive TokenSource
  | roleRequestEstimate | roleOutputEstimate
deriving DecidableEq, Repr

namespace TokenSource

def text : TokenSource → String
  | roleRequestEstimate => "role_request_estimate"
  | roleOutputEstimate => "role_output_estimate"

end TokenSource

/-! ### Calls -/

inductive AttemptCall (name : AgentRoleName)
  | dateNow
  | incrementCounter (counter : TelemetryCounter)
  /-- The fields of the cost tracker are read. -/
  | readCost
  /-- `costTracker.recordTokenUsage`, with the cost that it computes. What the tokens are for is not
  among its arguments; it is kept here to tell the calls apart. -/
  | recordTokenUsage (source : TokenSource) (tokens costUsdMicro : Nat)
  | executeRoleWithLoop
  /-- `role.validate?.(response)`. -/
  | validateRole (response : RoleResponse name)
  | recordRunStep (step : RecordRunStepInput)

@[reducible] def AttemptCall.Ans {name : AgentRoleName} : AttemptCall name → Type
  | dateNow => Nat
  | readCost => RoleRunCostTracker
  | recordTokenUsage .. => Unit
  | executeRoleWithLoop => Except RuntimeError (RoleResponse name)
  | incrementCounter _ | validateRole _ | recordRunStep _ => Except RuntimeError Unit

abbrev Attempting (name : AgentRoleName) (α : Type) :=
  Act RuntimeError (AttemptCall name) AttemptCall.Ans α

variable {name : AgentRoleName}

def incrementCounter (counter : TelemetryCounter) : Attempting name Unit := do
  let answer ← Act.perform (.incrementCounter counter)
  Act.ofExcept answer

/-- `Date.now()`. -/
def dateNow : Attempting name Nat :=
  Act.perform (AttemptCall.dateNow : AttemptCall name)

def readCost : Attempting name RoleRunCostTracker :=
  Act.perform (AttemptCall.readCost : AttemptCall name)

def recordTokenUsage (source : TokenSource) (tokens costUsdMicro : Nat) : Attempting name Unit :=
  Act.perform (AttemptCall.recordTokenUsage source tokens costUsdMicro : AttemptCall name)

def executeRoleWithLoop : Attempting name (RoleResponse name) := do
  let answer ← Act.perform .executeRoleWithLoop
  Act.ofExcept answer

def validateRole (response : RoleResponse name) : Attempting name Unit := do
  let answer ← Act.perform (.validateRole response)
  Act.ofExcept answer

def recordRunStep (step : RecordRunStepInput) : Attempting name Unit := do
  let answer ← Act.perform (.recordRunStep step)
  Act.ofExcept answer

/-! ### `execute` -/

section Execute

variable (rt : Runtime) (req : RoleRequest) (context : RoleExecutionContext)

/-- `resolveModelForRole(request.role)`. -/
def model : String := rt.resolveModelForRole req.role

/-- `recordModelSelectionMetric`. -/
def recordModelSelectionMetric : Attempting name Unit :=
  incrementCounter
    { name := "llm_model_selection_total", runId := context.runId
      tags := [("role", req.role.text), ("model", model rt req)] }

/-- `recordTokenAndCostUsage`. -/
def recordTokenAndCostUsage (source : TokenSource) (tokens : Nat) : Attempting name Unit := do
  let cost := rt.host.tokenCost tokens
    ((rt.config.modelCostPer1kTokensUsdMicro.get? (model rt req)).getD 0)
  let tags :=
    [("role", req.role.text), ("model", model rt req), ("source", source.text)]
  recordTokenUsage source tokens cost
  incrementCounter
    { name := "llm_token_estimate_total", value := some tokens, runId := context.runId, tags }
  incrementCounter
    { name := "run_cost_usd_micro_total", value := some cost, runId := context.runId, tags }

/-- The budgets are checked and the request is charged. -/
def chargeRequest : Attempting name Unit := do
  recordModelSelectionMetric rt req context
  let cost ← readCost
  Act.ofExcept (rt.enforceBudgets cost (model rt req) req.role.text)
  recordTokenAndCostUsage rt req context .roleRequestEstimate
    (estimateTokens (rt.host.stringify req.input.toJson))

/-- `role.validate` and `validateRoleResult`. -/
def checkAttempt (attempt : RoleResponse name) : Attempting name Unit := do
  validateRole attempt
  Act.ofExcept (Runtime.validateRoleResult attempt)

/-- The step of an attempt that has passed. -/
def recordAttempt (startedAt : Nat) (attempt : RoleResponse name) : Attempting name Unit := do
  let finishedAt ← dateNow
  recordRunStep
    (Runtime.roleStep name req context (.json attempt.payload) .succeeded (finishedAt - startedAt))

/-- The output of an attempt is charged. -/
def chargeOutput (attempt : RoleResponse name) : Attempting name Unit :=
  recordTokenAndCostUsage rt req context .roleOutputEstimate
    (estimateTokens (rt.host.stringify attempt.payload))

/-- The `try` block of the first attempt. -/
def settleFirst (startedAt : Nat) (firstAttempt : RoleResponse name) : Attempting name Unit := do
  checkAttempt firstAttempt
  recordAttempt req context startedAt firstAttempt
  chargeOutput rt req context firstAttempt

/-- The `catch` block of the second attempt. -/
def rejectSecond (startedAt : Nat) (validationError : RuntimeError) : Attempting name Unit := do
  let finishedAt ← dateNow
  recordRunStep
    (Runtime.roleStep name req context (.text validationError.message) .failed
      (finishedAt - startedAt))
  throw { cls := .schemaValidation, message := "Role response schema validation failed" }

/-- The `catch` block of the first attempt, once the second one is there. -/
def settleSecond (startedAt : Nat) (secondAttempt : RoleResponse name) : Attempting name Unit := do
  Act.catching (checkAttempt secondAttempt) (rejectSecond req context startedAt)
  recordAttempt req context startedAt secondAttempt
  chargeOutput rt req context secondAttempt

/-- `execute`, before the role is executed: the time at which it started. -/
def prepare : Attempting name Nat := do
  let startedAt ← dateNow
  chargeRequest rt req context
  return startedAt

/-- `execute`, up to the first attempt. -/
def firstAttempt : Attempting name (Nat × RoleResponse name) := do
  let startedAt ← prepare rt req context
  let attempt ← executeRoleWithLoop
  return (startedAt, attempt)

/-- The `catch` block of the first attempt. -/
def retry (startedAt : Nat) : Attempting name (RoleResponse name) := do
  let secondAttempt ← executeRoleWithLoop
  settleSecond rt req context startedAt secondAttempt
  return secondAttempt

/-- **`RoleRunner.execute`**. -/
def execute : Attempting name (RoleResponse name) := do
  let (startedAt, attempt) ← firstAttempt rt req context
  Act.catching
    (do
      settleFirst rt req context startedAt attempt
      return attempt)
    (fun _ => retry rt req context startedAt)

end Execute

end RoleRunner

end AiOrchestrator
