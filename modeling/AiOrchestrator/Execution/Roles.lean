import AiOrchestrator.Core.Artifacts
import AiOrchestrator.Core.Encoding
import Mathlib.Data.Rat.Defs

/-!
# Roles

What a run hands to a role and gets back: requests, contexts, responses, tool calls and
observations (`packages/core/src/roles.ts`), the outputs of the roles a run calls, the
checks of `role-output-schema-registry.ts`, and the texts made of them
(`packages/execution/src/runtime-utils.ts`).

Outputs are typed by the role's name. Of an output only the fields that some check or
the runner reads are kept; the whole of it, as JSON, is the response's `payload`.
-/

namespace AiOrchestrator

/-! ### Outputs -/

/-- `OptimizedPrompt`, the output of the prompt engineer. -/
structure OptimizedPrompt where
  id : String
  role : AgentRoleName
  systemPrompt : String
  taskPrompt : String
  contextSummary : String
  constraints : List String
  outputSchema : Json Nat

structure CodeExecutionOutput where
  changed : Bool
  summary : String
  changedFiles : List String
  evidence : List (Json Nat)
  noOpReason : Option String

structure ArchitectureAnalysis where
  findings : List ArchitectureFinding
  riskSummary : String

structure PlannerOutput where
  milestoneId : String
  tasks : Record BacklogTask
  summary : String
  dependencyEdges : List (Json Nat)
  assumptions : List String
  batches : List (Json Nat)

structure DocsWriterOutput where
  summary : String
  markdown : String

structure ReviewResult where
  approved : Bool
  blockingIssues : List String

inductive QualityStageName
  | build | lint | typecheck | test
deriving DecidableEq, Repr

def QualityStageName.text : QualityStageName → String
  | .build => "build"
  | .lint => "lint"
  | .typecheck => "typecheck"
  | .test => "test"

inductive QualityStageStatus
  | passing | failing
deriving DecidableEq, Repr

def QualityStageStatus.text : QualityStageStatus → String
  | .passing => "passing"
  | .failing => "failing"

structure QualityStageResult where
  stage : QualityStageName
  status : QualityStageStatus
  diagnostics : List String

structure TestExecutionResult where
  passed : Bool
  evidence : List (Json Nat)
  failures : List String
  qualityStages : Option (List QualityStageResult)

/-- The output of a role. The task manager returns a task object with the key under which the
backlog of the state it was given holds it; an object that the backlog does not hold has a
key that the backlog does not have. Roles that a run never calls have no output. -/
def AgentRoleName.Output : AgentRoleName → Type
  | .taskManager => Option (String × BacklogTask)
  | .promptEngineer => OptimizedPrompt
  | .coder => CodeExecutionOutput
  | .architect => ArchitectureAnalysis
  | .planner => PlannerOutput
  | .docsWriter => DocsWriterOutput
  | .reviewer => ReviewResult
  | .tester => TestExecutionResult
  | .bootstrapAnalyst | .releaseAuditor | .stateSteward | .integrationManager => Unit

/-! ### Requests and responses -/

/-- The input of a request. -/
inductive RoleInput
  | select (state : ProjectState)
  | prompt (task : BacklogTask) (stateSummary : String) (failures : List FailureRecord)
      (outputSchema : Json Nat)
  | execute (task : BacklogTask) (promptOutput : OptimizedPrompt)
  | judge (task : BacklogTask) (result : Json Nat)

def OptimizedPrompt.toJson (prompt : OptimizedPrompt) : Json Nat :=
  .obj [("id", .str prompt.id), ("role", .str prompt.role.text),
    ("systemPrompt", .str prompt.systemPrompt), ("taskPrompt", .str prompt.taskPrompt),
    ("contextSummary", .str prompt.contextSummary), ("constraints", jsonTexts prompt.constraints),
    ("outputSchema", prompt.outputSchema)]

def RoleInput.toJson : RoleInput → Json Nat
  | .select state => .obj [("state", state.toJson)]
  | .prompt task stateSummary failures outputSchema =>
    .obj [("task", task.toJson), ("stateSummary", .str stateSummary),
      ("failures", .arr (failures.map FailureRecord.toJson)), ("outputSchema", outputSchema)]
  | .execute task promptOutput => .obj [("task", task.toJson), ("prompt", promptOutput.toJson)]
  | .judge task result => .obj [("task", task.toJson), ("result", result)]

structure RoleRequest where
  role : AgentRoleName
  objective : String
  input : RoleInput
  acceptanceCriteria : List String

structure ExecutionPolicyRule where
  maxChangedFiles : Nat
  forbiddenDirectories : List String
  requiredChecks : List String

inductive ToolExecutionPolicy
  | orchestratorDefault | readOnlyAnalysis | qualityGate
deriving DecidableEq, Repr

def ToolExecutionPolicy.text : ToolExecutionPolicy → String
  | .orchestratorDefault => "orchestrator_default"
  | .readOnlyAnalysis => "read_only_analysis"
  | .qualityGate => "quality_gate"

inductive ToolPermissionScope
  | readOnly | repoWrite | testExecution
deriving DecidableEq, Repr

def ToolPermissionScope.text : ToolPermissionScope → String
  | .readOnly => "read_only"
  | .repoWrite => "repo_write"
  | .testExecution => "test_execution"

/-- `RoleExecutionContext`, with what is read of its `toolProfile` and `toolExecution`. -/
structure RoleExecutionContext where
  runId : String
  taskId : Option String
  role : AgentRoleName
  stateSummary : String
  canWriteRepo : Bool
  policy : ToolExecutionPolicy
  permissionScope : ToolPermissionScope
  workspaceRoot : String
  policyRules : ExecutionPolicyRule
  /-- Whether there is an `abortSignal`. -/
  hasAbortSignal : Bool

structure RoleResponse (name : AgentRoleName) where
  role : AgentRoleName
  summary : String
  output : name.Output
  payload : Json Nat
  confidence : Rat

structure ToolCallRequest where
  toolName : String
  input : Record (Json Nat)
  rationale : String

/-- A value of type `unknown`. -/
inductive UnknownValue
  | undefined
  | text (value : String)
  | json (value : Json Nat)

structure RoleObservation where
  step : Nat
  toolName : String
  /-- The output of a tool that succeeded or the error of one that did not. -/
  result : Except String UnknownValue
  createdAt : String

/-- Whether the observation is of a tool that succeeded. -/
def RoleObservation.ok (observation : RoleObservation) : Bool :=
  match observation.result with
  | .ok _ => true
  | .error _ => false

inductive RoleStepResult (name : AgentRoleName)
  | toolRequest (request : ToolCallRequest)
  | finalOutput (response : RoleResponse name)

/-! ### The rules of a context -/

/-- The policy of `ROLE_MODEL_CONSTRAINTS`. -/
def roleToolPolicy : AgentRoleName → ToolExecutionPolicy
  | .bootstrapAnalyst | .architect | .planner | .taskManager | .promptEngineer | .reviewer =>
    .readOnlyAnalysis
  | .releaseAuditor | .stateSteward | .tester => .qualityGate
  | .integrationManager | .coder | .docsWriter => .orchestratorDefault

/-- The permission scope of `ROLE_MODEL_CONSTRAINTS`. -/
def rolePermissionScope : AgentRoleName → ToolPermissionScope
  | .bootstrapAnalyst | .architect | .planner | .taskManager | .promptEngineer | .reviewer =>
    .readOnly
  | .releaseAuditor | .stateSteward | .tester => .testExecution
  | .integrationManager | .coder | .docsWriter => .repoWrite

/-- `canWriteRepo` of `ROLE_MODEL_CONSTRAINTS`. -/
def roleCanWriteRepo : AgentRoleName → Bool
  | .integrationManager | .coder | .docsWriter => true
  | .bootstrapAnalyst | .architect | .planner | .taskManager | .promptEngineer | .reviewer
  | .releaseAuditor | .stateSteward | .tester => false

/-- `DEFAULT_RULES_BY_POLICY`. -/
def defaultRulesByPolicy : ToolExecutionPolicy → ExecutionPolicyRule
  | .readOnlyAnalysis =>
    { maxChangedFiles := 0, forbiddenDirectories := [".git", ".github/workflows"]
      requiredChecks := [] }
  | .orchestratorDefault =>
    { maxChangedFiles := 50, forbiddenDirectories := [".git", ".github/workflows"]
      requiredChecks := ["lint", "typecheck"] }
  | .qualityGate =>
    { maxChangedFiles := 0, forbiddenDirectories := [".git", ".github/workflows"]
      requiredChecks := ["lint", "typecheck", "test", "build"] }

/-! ### Checks on responses -/

/-- `validateRoleResponse`. That warnings and risks are arrays is part of the type. -/
def validateRoleResponse {name : AgentRoleName} (role : AgentRoleName)
    (response : RoleResponse name) : List String :=
  (if response.role ≠ role then
    [s!"Role response role mismatch: expected {role.text}, got {response.role.text}"] else []) ++
  (if Text.isBlank response.summary then ["Role response summary is required"] else []) ++
  (if response.confidence < 0 ∨ 1 < response.confidence then
    ["Role response confidence must be between 0 and 1"] else [])

def validateOptimizedPrompt (output : OptimizedPrompt) : List String :=
  (if Text.isBlank output.id then ["Prompt id is required"] else []) ++
  (if Text.isBlank output.systemPrompt then ["Prompt systemPrompt is required"] else []) ++
  (if Text.isBlank output.taskPrompt then ["Prompt taskPrompt is required"] else []) ++
  (if Text.isBlank output.contextSummary then ["Prompt contextSummary is required"] else [])

/-- `!text?.trim()`. -/
def missingText : Option String → Bool
  | none => true
  | some text => Text.isBlank text

def validateCodeExecutionOutput (output : CodeExecutionOutput) : List String :=
  (if Text.isBlank output.summary then ["Coder output summary is required"] else []) ++
  (if output.changed then
    (if output.evidence.length = 0 then ["Coder output changed=true requires evidence"] else []) ++
    (if output.changedFiles.length = 0 then
      ["Coder output changed=true requires changedFiles"] else [])
  else if missingText output.noOpReason then
    ["Coder output changed=false requires noOpReason"] else [])

def validateArchitectureAnalysis (output : ArchitectureAnalysis) : List String :=
  (if Text.isBlank output.riskSummary then
    ["Architecture analysis riskSummary is required"] else []) ++
  output.findings.flatMap validateArchitectureFinding

def validatePlannerOutput (output : PlannerOutput) : List String :=
  (if Text.isBlank output.summary then ["Planner summary is required"] else []) ++
  (if Text.isBlank output.milestoneId then ["Planner milestone.id is required"] else []) ++
  output.tasks.values.flatMap validateBacklogTask ++
  (if output.dependencyEdges.length = 0 then
    ["Planner dependencyEdges must be a non-empty array"] else []) ++
  (if output.assumptions.length = 0 then
    ["Planner assumptions must be a non-empty array"] else []) ++
  (if output.batches.length = 0 then
    ["Planner mergePreview.batches must be a non-empty array"] else [])

/-- `defaultRoleOutputSchemaRegistry.validate`. -/
def RoleOutputSchemaRegistry.validate : (name : AgentRoleName) → name.Output → List String
  | .taskManager, output =>
    match output with
    | none => []
    | some (_, task) => validateBacklogTask task
  | .promptEngineer, output => validateOptimizedPrompt output
  | .coder, output => validateCodeExecutionOutput output
  | .architect, output => validateArchitectureAnalysis output
  | .planner, output => validatePlannerOutput output
  | .docsWriter, output =>
    if Text.isBlank (DocsWriterOutput.markdown output) then
      ["Documentation output markdown is required"] else []
  | .reviewer, _ | .tester, _ => []
  | .bootstrapAnalyst, _ | .releaseAuditor, _ | .stateSteward, _ | .integrationManager, _ => []

/-- An object schema with the properties it requires. -/
def objectSchema (required : List String) : Json Nat :=
  .obj [("type", .str "object"), ("required", jsonTexts required)]

/-- `ROLE_OUTPUT_SCHEMAS`, for the roles that a task is routed to. -/
def RoleOutputSchemaRegistry.getSchema : AgentRoleName → Json Nat
  | .architect => objectSchema ["findings", "riskSummary"]
  | .planner => objectSchema ["milestone", "backlog", "summary", "dependencyEdges", "assumptions",
      "risks", "mergePreview"]
  | .coder => objectSchema ["changed", "summary", "changedFiles", "evidence"]
  | .tester => objectSchema ["passed", "testPlan", "evidence", "failures", "missingCoverage"]
  | .docsWriter => objectSchema ["summary", "affectedModules", "behaviorChanges",
      "designRationale", "followUpGaps", "markdown"]
  | _ => .obj []

/-! ### An output read as the coder's

`TaskRunner.run` reads the output of whatever role executed the task as a
`CodeExecutionOutput`. Fields that the role's output does not have are undefined. -/

structure CodeExecutionView where
  changed : Bool
  summary : Option String
  changedFiles : List String
  evidence : List (Json Nat)
  noOpReason : Option String

/-- `executionResponse.output` as `CodeExecutionOutput`. -/
def asCodeExecutionOutput : (name : AgentRoleName) → name.Output → CodeExecutionView
  | .coder, output =>
    let output : CodeExecutionOutput := output
    { changed := output.changed, summary := some output.summary
      changedFiles := output.changedFiles, evidence := output.evidence
      noOpReason := output.noOpReason }
  | .planner, output =>
    { changed := false, summary := some (PlannerOutput.summary output), changedFiles := []
      evidence := [], noOpReason := none }
  | .docsWriter, output =>
    { changed := false, summary := some (DocsWriterOutput.summary output), changedFiles := []
      evidence := [], noOpReason := none }
  | .tester, output =>
    { changed := false, summary := none, changedFiles := []
      evidence := TestExecutionResult.evidence output, noOpReason := none }
  | _, _ =>
    { changed := false, summary := none, changedFiles := [], evidence := [], noOpReason := none }

/-! ### Texts -/

/-- `truncateText`. -/
def truncateText (value : String) (maxLength : Nat) : String :=
  if Text.utf16Length value ≤ maxLength then value
  else Text.sliceTo value maxLength ++ "...(truncated)"

/-- `estimateObservationTokens` of a text. -/
def estimateTokens (text : String) : Nat := max 1 ((Text.utf16Length text + 3) / 4)

/-- `safeStringify`. -/
def safeStringify (host : Host) : UnknownValue → String
  | .undefined => "undefined"
  | .text value => value
  | .json value => host.stringify value

/-- `summarizeObservation`. -/
def summarizeObservation (host : Host) (observation : RoleObservation) : String :=
  match observation.result with
  | .error message => truncateText message 500
  | .ok (.text value) => truncateText value 500
  | .ok .undefined => "no output"
  | .ok (.json value) => truncateText (host.stringify value) 500

/-- `summarizeState`. -/
def summarizeState (state : ProjectState) : String :=
  String.intercalate " "
    [s!"project={state.projectName}", s!"milestones={state.milestones.entries.length}",
      s!"tasks={state.backlog.tasks.entries.length}",
      s!"completed={state.execution.completedTaskIds.length}"]

end AiOrchestrator
