import AiOrchestrator.Core.ProjectState
import AiOrchestrator.Lib.Numbers
import AiOrchestrator.Lib.Overlays
import AiOrchestrator.Lib.Text

/-!
# Layered project configuration

`packages/core/src/config/project-config.ts`: overrides of a project's policy, their merging, and
`resolveEffectiveConfig`, which merges the layers over the defaults and gives the result to the schema.

A property of a section is an `Overlay.Slot`, since a section is merged by spreading. A section itself is
only asked whether it is there. A schema answers what it makes of a value, `none` where it refuses it; the
issues of a refusal are left out.

`Leaf` names the leaves of a configuration, so that what merging does to a leaf is said once for all of
them (`Leaf.field_merge`).
-/

namespace AiOrchestrator

namespace Config

open Overlay

/-! ### Configurations and overrides -/

inductive SafeWriteMode
  | readOnly | proposeOnly | sandboxWrite | workspaceWrite | protectedWrite
deriving DecidableEq, Repr

inductive ApprovalGateMode
  | disabled | enabled
deriving DecidableEq, Repr

structure WorkflowConfig where
  maxStepsPerRun : JsNumber
  maxRetriesPerTask : JsNumber
  approvalGateMode : ApprovalGateMode
  approvalRequiredActions : List ApprovalRequestedAction
  approvalBulkFileThreshold : JsNumber

structure WorkflowConfigOverride where
  maxStepsPerRun : Slot JsNumber := none
  maxRetriesPerTask : Slot JsNumber := none
  approvalGateMode : Slot ApprovalGateMode := none
  approvalRequiredActions : Slot (List ApprovalRequestedAction) := none
  approvalBulkFileThreshold : Slot JsNumber := none

structure ToolsConfig where
  writeMode : SafeWriteMode
  allowedWritePaths : List String
  protectedWritePaths : List String
  allowedShellCommands : List String
  maxModifiedFiles : JsNumber

structure ToolsConfigOverride where
  writeMode : Slot SafeWriteMode := none
  allowedWritePaths : Slot (List String) := none
  protectedWritePaths : Slot (List String) := none
  allowedShellCommands : Slot (List String) := none
  maxModifiedFiles : Slot JsNumber := none

structure TokenBudget where
  perRun : Slot JsNumber := none
  perTask : Slot JsNumber := none
  perDay : Slot JsNumber := none

structure MoneyBudget where
  perRunUsdMicro : Slot JsNumber := none
  perTaskUsdMicro : Slot JsNumber := none
  perDayUsdMicro : Slot JsNumber := none

structure BudgetsConfig where
  tokens : TokenBudget
  money : MoneyBudget

structure BudgetsConfigOverride where
  tokens : Option TokenBudget := none
  money : Option MoneyBudget := none

structure ProjectConfigOverride where
  workflow : Option WorkflowConfigOverride := none
  tools : Option ToolsConfigOverride := none
  budgets : Option BudgetsConfigOverride := none
  modelRoutingRef : Option String := none

structure ProjectConfig where
  projectId : String
  version : JsNumber
  workflow : WorkflowConfig
  tools : ToolsConfig
  budgets : BudgetsConfig
  modelRoutingRef : Option String
  agents : Option (Record ProjectConfigOverride)

/-! ### Schemas -/

/-- `z.number().int()`: the safe integers. -/
def safeInteger? : JsNumber → Option Int
  | .finite d =>
    let n := d.coefficient * 10 ^ d.exponent.toNat
    if 0 ≤ d.exponent ∧ n.natAbs ≤ 9007199254740991 then some n else none
  | .nan | .infinite _ => none

/-- `z.number().int().positive()`. -/
def positiveInt (n : JsNumber) : Option JsNumber :=
  if (safeInteger? n).any (0 < ·) then some n else none

/-- `z.number().int().nonnegative()`. -/
def nonnegativeInt (n : JsNumber) : Option JsNumber :=
  if (safeInteger? n).any (0 ≤ ·) then some n else none

/-- `z.string().min(1)`. -/
def nonEmpty (text : String) : Option String := if text = "" then none else some text

/-- `z.array(z.string().trim().min(1))`. -/
def trimmedTexts (texts : List String) : Option (List String) :=
  let trimmed := texts.map Text.trim
  if "" ∈ trimmed then none else some trimmed

/-- `identifierSchema`. -/
def identifierSchema (id : String) : Option String :=
  if id = "" ∨ ':' ∈ id.toList then none else some id

section Slots

variable {α : Type} (schema : α → Option α)

/-- A property that has to be there. -/
def required (field : Slot α) : Option α := field.join.bind schema

/-- `.optional()` on a property. -/
def optional : Slot α → Option (Slot α)
  | some (some value) => (schema value).map fun value => some (some value)
  | field => some field

/-- `.optional()` on a value. -/
def optionally : Option α → Option (Option α)
  | none => some none
  | some value => (schema value).map some

end Slots

def workflowConfigSchema (workflow : WorkflowConfigOverride) : Option WorkflowConfig := do
  let maxStepsPerRun ← required positiveInt workflow.maxStepsPerRun
  let maxRetriesPerTask ← required nonnegativeInt workflow.maxRetriesPerTask
  let approvalGateMode ← required some workflow.approvalGateMode
  let approvalRequiredActions ← required some workflow.approvalRequiredActions
  let approvalBulkFileThreshold ← required positiveInt workflow.approvalBulkFileThreshold
  pure
    { maxStepsPerRun, maxRetriesPerTask, approvalGateMode, approvalRequiredActions,
      approvalBulkFileThreshold }

/-- `workflowConfigSchema.partial()`. -/
def workflowConfigOverrideSchema (workflow : WorkflowConfigOverride) :
    Option WorkflowConfigOverride := do
  let maxStepsPerRun ← optional positiveInt workflow.maxStepsPerRun
  let maxRetriesPerTask ← optional nonnegativeInt workflow.maxRetriesPerTask
  let approvalGateMode ← optional some workflow.approvalGateMode
  let approvalRequiredActions ← optional some workflow.approvalRequiredActions
  let approvalBulkFileThreshold ← optional positiveInt workflow.approvalBulkFileThreshold
  pure
    { maxStepsPerRun, maxRetriesPerTask, approvalGateMode, approvalRequiredActions,
      approvalBulkFileThreshold }

def toolsConfigSchema (tools : ToolsConfigOverride) : Option ToolsConfig := do
  let writeMode ← required some tools.writeMode
  let allowedWritePaths ← required trimmedTexts tools.allowedWritePaths
  let protectedWritePaths ← required trimmedTexts tools.protectedWritePaths
  let allowedShellCommands ← required trimmedTexts tools.allowedShellCommands
  let maxModifiedFiles ← required positiveInt tools.maxModifiedFiles
  pure { writeMode, allowedWritePaths, protectedWritePaths, allowedShellCommands, maxModifiedFiles }

/-- `toolsConfigSchema.partial()`. -/
def toolsConfigOverrideSchema (tools : ToolsConfigOverride) : Option ToolsConfigOverride := do
  let writeMode ← optional some tools.writeMode
  let allowedWritePaths ← optional trimmedTexts tools.allowedWritePaths
  let protectedWritePaths ← optional trimmedTexts tools.protectedWritePaths
  let allowedShellCommands ← optional trimmedTexts tools.allowedShellCommands
  let maxModifiedFiles ← optional positiveInt tools.maxModifiedFiles
  pure { writeMode, allowedWritePaths, protectedWritePaths, allowedShellCommands, maxModifiedFiles }

def tokenBudgetSchema (tokens : TokenBudget) : Option TokenBudget := do
  let perRun ← optional positiveInt tokens.perRun
  let perTask ← optional positiveInt tokens.perTask
  let perDay ← optional positiveInt tokens.perDay
  pure { perRun, perTask, perDay }

def moneyBudgetSchema (money : MoneyBudget) : Option MoneyBudget := do
  let perRunUsdMicro ← optional nonnegativeInt money.perRunUsdMicro
  let perTaskUsdMicro ← optional nonnegativeInt money.perTaskUsdMicro
  let perDayUsdMicro ← optional nonnegativeInt money.perDayUsdMicro
  pure { perRunUsdMicro, perTaskUsdMicro, perDayUsdMicro }

def budgetsConfigSchema (budgets : BudgetsConfigOverride) : Option BudgetsConfig := do
  let tokens ← budgets.tokens.bind tokenBudgetSchema
  let money ← budgets.money.bind moneyBudgetSchema
  pure { tokens, money }

def budgetsConfigOverrideSchema (budgets : BudgetsConfigOverride) : Option BudgetsConfigOverride := do
  let tokens ← optionally tokenBudgetSchema budgets.tokens
  let money ← optionally moneyBudgetSchema budgets.money
  pure { tokens, money }

def projectConfigOverrideSchema (override : ProjectConfigOverride) : Option ProjectConfigOverride := do
  let workflow ← optionally workflowConfigOverrideSchema override.workflow
  let tools ← optionally toolsConfigOverrideSchema override.tools
  let budgets ← optionally budgetsConfigOverrideSchema override.budgets
  let modelRoutingRef ← optionally nonEmpty override.modelRoutingRef
  pure { workflow, tools, budgets, modelRoutingRef }

/-- `z.record(z.string().min(1), projectConfigOverrideSchema)`. -/
def agentsSchema (agents : Record ProjectConfigOverride) : Option (Record ProjectConfigOverride) :=
  if agents.entries.all fun entry =>
      entry.1 ≠ "" && (projectConfigOverrideSchema entry.2).isSome then
    some (agents.mapVals fun _ override => (projectConfigOverrideSchema override).getD override)
  else none

/-- What `resolveEffectiveConfig` gives to the schema. -/
structure ProjectConfigCandidate extends ProjectConfigOverride where
  projectId : String
  version : JsNumber
  agents : Option (Record ProjectConfigOverride)

def projectConfigSchema (candidate : ProjectConfigCandidate) : Option ProjectConfig := do
  let projectId ← identifierSchema candidate.projectId
  let version ← nonnegativeInt candidate.version
  let workflow ← candidate.workflow.bind workflowConfigSchema
  let tools ← candidate.tools.bind toolsConfigSchema
  let budgets ← candidate.budgets.bind budgetsConfigSchema
  let modelRoutingRef ← optionally nonEmpty candidate.modelRoutingRef
  let agents ← optionally agentsSchema candidate.agents
  pure { projectId, version, workflow, tools, budgets, modelRoutingRef, agents }

/-! ### Merging -/

/-- `DEFAULT_PROJECT_CONFIG_OVERRIDE`. -/
def defaultProjectConfigOverride : ProjectConfigOverride where
  workflow := some
    { maxStepsPerRun := some (some (.finite (.ofNat 8)))
      maxRetriesPerTask := some (some (.finite (.ofNat 3)))
      approvalGateMode := some (some .disabled)
      approvalRequiredActions := some (some [])
      approvalBulkFileThreshold := some (some (.finite (.ofNat 25))) }
  tools := some
    { writeMode := some (some .workspaceWrite)
      allowedWritePaths := some (some ["."])
      protectedWritePaths := some (some [])
      allowedShellCommands := some (some [])
      maxModifiedFiles := some (some (.finite (.ofNat 200))) }
  budgets := some { tokens := some {}, money := some {} }

/-- `{ ...base, ...override }`. -/
def WorkflowConfigOverride.spreadOver (base override : WorkflowConfigOverride) : WorkflowConfigOverride where
  maxStepsPerRun := spread base.maxStepsPerRun override.maxStepsPerRun
  maxRetriesPerTask := spread base.maxRetriesPerTask override.maxRetriesPerTask
  approvalGateMode := spread base.approvalGateMode override.approvalGateMode
  approvalRequiredActions := spread base.approvalRequiredActions override.approvalRequiredActions
  approvalBulkFileThreshold := spread base.approvalBulkFileThreshold override.approvalBulkFileThreshold

def ToolsConfigOverride.spreadOver (base override : ToolsConfigOverride) : ToolsConfigOverride where
  writeMode := spread base.writeMode override.writeMode
  allowedWritePaths := spread base.allowedWritePaths override.allowedWritePaths
  protectedWritePaths := spread base.protectedWritePaths override.protectedWritePaths
  allowedShellCommands := spread base.allowedShellCommands override.allowedShellCommands
  maxModifiedFiles := spread base.maxModifiedFiles override.maxModifiedFiles

def TokenBudget.spreadOver (base override : TokenBudget) : TokenBudget where
  perRun := spread base.perRun override.perRun
  perTask := spread base.perTask override.perTask
  perDay := spread base.perDay override.perDay

def MoneyBudget.spreadOver (base override : MoneyBudget) : MoneyBudget where
  perRunUsdMicro := spread base.perRunUsdMicro override.perRunUsdMicro
  perTaskUsdMicro := spread base.perTaskUsdMicro override.perTaskUsdMicro
  perDayUsdMicro := spread base.perDayUsdMicro override.perDayUsdMicro

/-- `override ? { ...base, ...override } : base`, where spreading `undefined` adds nothing. -/
def mergeSection {σ : Type} (combine : σ → σ → σ) : Option σ → Option σ → Option σ
  | base, none => base
  | none, some override => some override
  | some base, some override => some (combine base override)

/-- **`mergeBudgetsOverride`**. -/
def mergeBudgetsOverride (base : Option BudgetsConfigOverride) :
    Option BudgetsConfigOverride → Option BudgetsConfigOverride
  | none => base
  | some override =>
    some
      { tokens := mergeSection TokenBudget.spreadOver (base.bind (·.tokens)) override.tokens
        money := mergeSection MoneyBudget.spreadOver (base.bind (·.money)) override.money }

/-- **`mergeConfigOverride`**. -/
def mergeConfigOverride (base : ProjectConfigOverride) :
    Option ProjectConfigOverride → ProjectConfigOverride
  | none => base
  | some override =>
    { workflow := mergeSection WorkflowConfigOverride.spreadOver base.workflow override.workflow
      tools := mergeSection ToolsConfigOverride.spreadOver base.tools override.tools
      budgets := mergeBudgetsOverride base.budgets override.budgets
      modelRoutingRef := override.modelRoutingRef.or base.modelRoutingRef }

def WorkflowConfig.asOverride (workflow : WorkflowConfig) : WorkflowConfigOverride where
  maxStepsPerRun := some (some workflow.maxStepsPerRun)
  maxRetriesPerTask := some (some workflow.maxRetriesPerTask)
  approvalGateMode := some (some workflow.approvalGateMode)
  approvalRequiredActions := some (some workflow.approvalRequiredActions)
  approvalBulkFileThreshold := some (some workflow.approvalBulkFileThreshold)

def ToolsConfig.asOverride (tools : ToolsConfig) : ToolsConfigOverride where
  writeMode := some (some tools.writeMode)
  allowedWritePaths := some (some tools.allowedWritePaths)
  protectedWritePaths := some (some tools.protectedWritePaths)
  allowedShellCommands := some (some tools.allowedShellCommands)
  maxModifiedFiles := some (some tools.maxModifiedFiles)

/-- `projectAsOverride`. -/
def projectAsOverride (project : ProjectConfig) : ProjectConfigOverride where
  workflow := some project.workflow.asOverride
  tools := some project.tools.asOverride
  budgets := some { tokens := some project.budgets.tokens, money := some project.budgets.money }
  modelRoutingRef := project.modelRoutingRef

/-- `ConfigError`, without its details. -/
structure ConfigError where
  message : String
deriving DecidableEq, Repr

/-- **`resolveEffectiveConfig`**. -/
def resolveEffectiveConfig (instanceLayer : Option ProjectConfigOverride) (project : ProjectConfig)
    (agent run : Option ProjectConfigOverride) : Except ConfigError ProjectConfig :=
  let withInstance := mergeConfigOverride defaultProjectConfigOverride instanceLayer
  let withProject := mergeConfigOverride withInstance (some (projectAsOverride project))
  let withAgent := mergeConfigOverride withProject agent
  let effective := mergeConfigOverride withAgent run
  match projectConfigSchema
      { effective with
        projectId := project.projectId, version := project.version, agents := project.agents } with
  | some config => .ok config
  | none => .error { message := "Failed to resolve effective project config" }

/-! ### Leaves -/

/-- **The leaves** of a configuration, with the type of their values. -/
inductive Leaf : Type → Type
  | maxStepsPerRun : Leaf JsNumber
  | maxRetriesPerTask : Leaf JsNumber
  | approvalGateMode : Leaf ApprovalGateMode
  | approvalRequiredActions : Leaf (List ApprovalRequestedAction)
  | approvalBulkFileThreshold : Leaf JsNumber
  | writeMode : Leaf SafeWriteMode
  | allowedWritePaths : Leaf (List String)
  | protectedWritePaths : Leaf (List String)
  | allowedShellCommands : Leaf (List String)
  | maxModifiedFiles : Leaf JsNumber
  | perRun : Leaf JsNumber
  | perTask : Leaf JsNumber
  | perDay : Leaf JsNumber
  | perRunUsdMicro : Leaf JsNumber
  | perTaskUsdMicro : Leaf JsNumber
  | perDayUsdMicro : Leaf JsNumber
  | modelRoutingRef : Leaf String

namespace Leaf

variable {α : Type}

/-- The field of an override. A missing section has none of its fields, and `modelRoutingRef` is only
asked whether it has a value. -/
def field : Leaf α → ProjectConfigOverride → Slot α
  | maxStepsPerRun, o => o.workflow.bind (·.maxStepsPerRun)
  | maxRetriesPerTask, o => o.workflow.bind (·.maxRetriesPerTask)
  | approvalGateMode, o => o.workflow.bind (·.approvalGateMode)
  | approvalRequiredActions, o => o.workflow.bind (·.approvalRequiredActions)
  | approvalBulkFileThreshold, o => o.workflow.bind (·.approvalBulkFileThreshold)
  | writeMode, o => o.tools.bind (·.writeMode)
  | allowedWritePaths, o => o.tools.bind (·.allowedWritePaths)
  | protectedWritePaths, o => o.tools.bind (·.protectedWritePaths)
  | allowedShellCommands, o => o.tools.bind (·.allowedShellCommands)
  | maxModifiedFiles, o => o.tools.bind (·.maxModifiedFiles)
  | perRun, o => (o.budgets.bind (·.tokens)).bind (·.perRun)
  | perTask, o => (o.budgets.bind (·.tokens)).bind (·.perTask)
  | perDay, o => (o.budgets.bind (·.tokens)).bind (·.perDay)
  | perRunUsdMicro, o => (o.budgets.bind (·.money)).bind (·.perRunUsdMicro)
  | perTaskUsdMicro, o => (o.budgets.bind (·.money)).bind (·.perTaskUsdMicro)
  | perDayUsdMicro, o => (o.budgets.bind (·.money)).bind (·.perDayUsdMicro)
  | modelRoutingRef, o => o.modelRoutingRef.map some

/-- The value of a leaf in an override. -/
def value (leaf : Leaf α) (override : ProjectConfigOverride) : Option α := (leaf.field override).join

/-- Whether every configuration has the leaf. -/
def isRequired : Leaf α → Bool
  | perRun | perTask | perDay | perRunUsdMicro | perTaskUsdMicro | perDayUsdMicro
  | modelRoutingRef => false
  | _ => true

/-- What the schema makes of a value of the leaf. -/
def schema : Leaf α → α → Option α
  | maxStepsPerRun | approvalBulkFileThreshold | maxModifiedFiles | perRun | perTask | perDay =>
    positiveInt
  | maxRetriesPerTask | perRunUsdMicro | perTaskUsdMicro | perDayUsdMicro => nonnegativeInt
  | approvalGateMode | approvalRequiredActions | writeMode => some
  | allowedWritePaths | protectedWritePaths | allowedShellCommands => trimmedTexts
  | modelRoutingRef => nonEmpty

/-- What the schema makes of the leaf, with a value or without. -/
def parse (leaf : Leaf α) : Option α → Option (Option α)
  | none => if leaf.isRequired then none else some none
  | some value => (leaf.schema value).map some

/-- The value as the schema writes it: texts in lists are trimmed. -/
def normal : Leaf α → α → α
  | allowedWritePaths, texts | protectedWritePaths, texts | allowedShellCommands, texts =>
    texts.map Text.trim
  | maxStepsPerRun, v | approvalBulkFileThreshold, v | maxModifiedFiles, v | perRun, v | perTask, v
  | perDay, v | maxRetriesPerTask, v | perRunUsdMicro, v | perTaskUsdMicro, v | perDayUsdMicro, v => v
  | approvalGateMode, v => v
  | approvalRequiredActions, v => v
  | writeMode, v => v
  | modelRoutingRef, v => v

end Leaf

end Config

end AiOrchestrator
