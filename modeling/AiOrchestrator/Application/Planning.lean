import AiOrchestrator.Agents.Planner
import AiOrchestrator.Core.Artifacts
import AiOrchestrator.Execution.RoleRunner
import AiOrchestrator.Lib.Prog

/-!
# The planning service

`PlanningService.plan` (`packages/application/src/planning-service.ts`): the planner is asked for a
backlog and a milestone (`askPlanner`), which replace those of the state before it is saved
(`commitPlan`).
-/

namespace AiOrchestrator

/-! ### The response of the planner -/

structure PlannerResponse where
  role : AgentRoleName
  summary : String
  output : PlanningOutput
  confidence : Rat

namespace PlanningEdgeType

def text : PlanningEdgeType → String
  | contains => "contains"
  | dependsOn => "depends_on"

end PlanningEdgeType

def PlanningDependencyEdge.toJson (edge : PlanningDependencyEdge) : Json Nat :=
  .obj [("fromId", .str edge.fromId), ("toId", .str edge.toId), ("type", .str edge.type.text),
    ("rationale", .str edge.rationale)]

def PlanningMergeBatch.toJson (batch : PlanningMergeBatch) : Json Nat :=
  .obj [("id", .str batch.id), ("taskIds", .arr (batch.taskIds.map .str)),
    ("rationale", .str batch.rationale)]

/-- What the checks on a response read of it. -/
def PlannerResponse.checked (response : PlannerResponse) : RoleResponse .planner where
  role := response.role
  summary := response.summary
  output :=
    { milestoneId := response.output.milestone.id
      tasks := response.output.backlog.tasks
      summary := response.output.summary
      dependencyEdges := response.output.dependencyEdges.map PlanningDependencyEdge.toJson
      assumptions := response.output.assumptions
      batches := response.output.mergePreview.batches.map PlanningMergeBatch.toJson }
  payload := .null
  confidence := response.confidence

/-! ### Calls -/

/-- What the service calls: the state store, the planner of the role registry, and the platform. -/
inductive PlanningCall
  | load
  | randomUUID
  | now
  | execute (input : PlannerInput) (runId stateSummary : String)
  /-- `planner.validate?.(response)`. -/
  | validate (response : PlannerResponse)
  /-- The answer is the revision that the store writes into the state that it is given. -/
  | save (state : ProjectState) (expectedRevision : Nat)
  | recordArtifact (artifact : ArtifactRecord) (expectedRevision : Nat)
  | recordEvent (event : DomainEvent)

@[reducible] def PlanningCall.Res : PlanningCall → Type
  | load => ProjectState
  | randomUUID | now => String
  | execute .. => PlannerResponse
  | save .. => Nat
  | validate _ | recordArtifact .. | recordEvent _ => Unit

/-- What a call resolves to or throws. -/
@[reducible] def PlanningCall.Ans (o : PlanningCall) : Type := Except RuntimeError o.Res

abbrev Planning (α : Type) := Act RuntimeError PlanningCall PlanningCall.Ans α

/-- `await` a call. -/
def planningCall (o : PlanningCall) : Planning o.Res := do
  let answer ← Act.perform o
  Act.ofExcept answer

/-! ### The service -/

namespace ProjectState

/-- A plan takes the place of the backlog, and its milestone becomes the current one. -/
def installPlan (state : ProjectState) (output : PlanningOutput) : ProjectState :=
  { state with
    backlog := output.backlog
    milestones := state.milestones.set output.milestone.id output.milestone
    currentMilestoneId := some output.milestone.id }

end ProjectState

/-! ### The state with a plan -/

/-- **A plan that is consistent in itself**: its texts are there and its references resolve. -/
structure PlanningOutput.SelfConsistent (output : PlanningOutput) : Prop where
  epics : ∀ epic ∈ output.backlog.epics.values, epic.SchemaOk
  features : ∀ feature ∈ output.backlog.features.values, feature.SchemaOk
  tasks : ∀ task ∈ output.backlog.tasks.values, task.SchemaOk
  milestone : output.milestone.SchemaOk
  epicRefs : ∀ epic ∈ output.backlog.epics.values, ∀ featureId ∈ epic.featureIds,
    output.backlog.features.Finds featureId
  featureRefs : ∀ feature ∈ output.backlog.features.values,
    output.backlog.epics.Finds feature.epicId ∧
      ∀ taskId ∈ feature.taskIds, ∃ task, output.backlog.tasks.get? taskId = some task ∧
        task.featureId = feature.id
  taskRefs : ∀ task ∈ output.backlog.tasks.values, validateBacklogTask task = [] ∧
    (∀ parent, task.splitFromTaskId = some parent → parent ≠ "" →
      output.backlog.tasks.Finds parent) ∧
    ∀ dependency ∈ task.dependsOn, output.backlog.tasks.Finds dependency

namespace ProjectState

/-- **The history of a state fits a plan**: what it says of tasks holds of those of the plan, and
no two milestones are in progress. -/
structure HistoryFits (state : ProjectState) (output : PlanningOutput) : Prop where
  activeTask : ∀ id, state.execution.activeTaskId = some id → id ≠ "" →
    output.backlog.tasks.Finds id
  oneInProgress : ((state.milestones.set output.milestone.id output.milestone).values.filter
    fun milestone => milestone.status = .inProgress).length ≤ 1
  blocked : ∀ taskId ∈ state.execution.blockedTaskIds, ∃ task,
    output.backlog.tasks.get? taskId = some task ∧ task.status = .blocked
  completed : ∀ taskId ∈ state.execution.completedTaskIds, ∃ task,
    output.backlog.tasks.get? taskId = some task ∧ task.status = .done

/-- A plan in a valid state is consistent in itself. -/
theorem selfConsistent_of_installPlan {state : ProjectState} {output : PlanningOutput}
    (h : (state.installPlan output).Valid) : output.SelfConsistent where
  epics := h.schema.epics
  features := h.schema.features
  tasks := h.schema.tasks
  milestone :=
    h.schema.milestones _ (Dict.mem_values_of_get? (Dict.get?_set_self _ output.milestone.id _))
  epicRefs := h.epicRefs
  featureRefs := h.featureRefs
  taskRefs := h.taskRefs

/-- **A valid state with a consistent plan** is valid exactly if its history fits the plan. -/
theorem installPlan_valid_iff {state : ProjectState} (h : state.Valid) {output : PlanningOutput}
    (hout : output.SelfConsistent) :
    (state.installPlan output).Valid ↔ state.HistoryFits output := by
  constructor
  · intro hvalid
    refine ⟨hvalid.activeTask, hvalid.oneInProgress, fun taskId htaskId => ?_, hvalid.completedRefs⟩
    obtain ⟨task, hget, hstatus, -⟩ := hvalid.blockedRefs taskId htaskId
    exact ⟨task, hget, hstatus⟩
  · intro hfits
    have hschema : (state.installPlan output).SchemaOk :=
      { h.schema with
        epics := hout.epics, features := hout.features, tasks := hout.tasks
        milestones := Dict.forall_values_set h.schema.milestones hout.milestone }
    refine
      { schema := hschema
        discovery := h.discovery, findings := h.findings, policyScope := h.policyScope
        analysisSummary := h.analysisSummary
        currentMilestone := ?_
        activeTask := hfits.activeTask
        featureRefs := hout.featureRefs, epicRefs := hout.epicRefs, taskRefs := hout.taskRefs
        oneInProgress := hfits.oneInProgress
        blockedRefs := ?_
        completedRefs := hfits.completed }
    · intro id hid _
      cases hid
      exact Or.inl (Dict.mem_keys_set.mpr (Or.inl rfl))
    · intro taskId htaskId
      obtain ⟨task, hget, hstatus⟩ := hfits.blocked taskId htaskId
      obtain ⟨-, -, -, hreason⟩ := h.blockedRefs taskId htaskId
      exact ⟨task, hget, hstatus, hreason⟩

end ProjectState

/-! ### The calls in order -/

namespace PlanningService

/-- The state and the response of the planner, with the id of the prompt. -/
structure Asked where
  state : ProjectState
  promptId : String
  response : PlannerResponse

/-- `state ?? await this.stateStore.load()`. -/
def currentState : Option ProjectState → Planning ProjectState
  | some state => pure state
  | none => planningCall .load

/-- `plan`, up to the checks on the response. -/
def askPlanner (given : Option ProjectState) : Planning Asked := do
  let state ← currentState given
  let promptId : String ← planningCall .randomUUID
  let runId : String ← planningCall .randomUUID
  let input : PlannerInput :=
    { discovery := state.discovery, findings := state.architecture.findings }
  let response : PlannerResponse ← planningCall (.execute input runId state.summary)
  planningCall (.validate response)
  -- `assertRoleOutput`
  Act.ofExcept (Runtime.validateRoleResult response.checked)
  return { state, promptId, response }

/-- `Object.keys(response.output.backlog.tasks).length`. -/
def Asked.taskCount (asked : Asked) : Nat := asked.response.output.backlog.tasks.keys.length

/-- The artifact of a plan. -/
def planArtifact (asked : Asked) (id createdAt : String) : ArtifactRecord where
  id := id
  type := .plan
  title := "Backlog plan"
  location := none
  metadata :=
    Dict.ofList [("promptId", asked.promptId), ("tasks", toString asked.taskCount),
      ("milestoneId", asked.response.output.milestone.id)]
  createdAt := createdAt

/-- The event of a plan. -/
def planEvent (asked : Asked) (id createdAt : String) : DomainEvent :=
  makeEvent id createdAt .backlogPlanned
    [("taskCount", .num asked.taskCount),
      ("milestoneId", .str asked.response.output.milestone.id)] none

/-- `plan`, after the state is saved. -/
def recordPlan (asked : Asked) (revision : Nat) : Planning Unit := do
  let artifactId : String ← planningCall .randomUUID
  let createdAt : String ← planningCall .now
  planningCall (.recordArtifact (planArtifact asked artifactId createdAt) revision)
  let eventId : String ← planningCall .randomUUID
  let eventTime : String ← planningCall .now
  planningCall (.recordEvent (planEvent asked eventId eventTime))

/-- `plan`, from the change of the state on. -/
def commitPlan (asked : Asked) : Planning PlanningOutput := do
  let state := asked.state.installPlan asked.response.output
  Act.ofExcept (assertProjectState state)
  let revision : Nat ← planningCall (.save state state.revision)
  recordPlan asked revision
  return asked.response.output

/-- **`PlanningService.plan`**. -/
def plan (given : Option ProjectState) : Planning PlanningOutput := do
  let asked ← askPlanner given
  commitPlan asked

end PlanningService

end AiOrchestrator
