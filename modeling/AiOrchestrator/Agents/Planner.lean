import AiOrchestrator.Agents.MergePreview
import AiOrchestrator.Core.Encoding
import AiOrchestrator.Core.Validation
import AiOrchestrator.Lib.Words

/-!
# The planner

`PlannerRole` of `packages/agents/src/default-roles.ts`: a backlog with one task for each
architecture finding, in the order of severity. Ids are made of the subsystem of the finding
(`slugify`) and, for features and tasks, its place in that order.

`PlanDraft` holds the accumulators of the loop over the findings, `planFinding` is its body.
-/

namespace AiOrchestrator

/-! ### The output -/

inductive PlanningEdgeType
  | contains | dependsOn
deriving DecidableEq, Repr

structure PlanningDependencyEdge where
  fromId : String
  toId : String
  type : PlanningEdgeType
  rationale : String
deriving DecidableEq

structure PlanningRisk where
  id : String
  title : String
  severity : ArchitectureSeverity
  description : String
  mitigation : String
  relatedIds : List String
deriving DecidableEq

structure PlannerInput where
  discovery : ProjectDiscovery
  findings : List ArchitectureFinding

structure PlanningOutput where
  milestone : Milestone
  backlog : Backlog
  summary : String
  dependencyEdges : List PlanningDependencyEdge
  assumptions : List String
  risks : List PlanningRisk
  mergePreview : PlanningMergePreview
deriving DecidableEq

/-! ### Texts -/

/-- `[a-z0-9]`. -/
def isSlugChar (c : Char) : Bool := ('a' ≤ c && c ≤ 'z') || ('0' ≤ c && c ≤ '9')

/-- `slugify`. -/
def slugify (input : String) : String :=
  String.ofList (Words.strip '-' (Words.collapse isSlugChar '-' false (Text.lowerCase input).toList))

/-- `humanizeSubsystem`. -/
def humanizeSubsystem (subsystem : String) : String :=
  String.ofList (Words.collapse (fun c => c != '_' && c != '-') ' ' false subsystem.toList)

/-- `humanizeIssueType`. -/
def humanizeIssueType (issueType : ArchitectureIssueType) : String :=
  String.ofList (issueType.text.toList.map fun c => if c = '_' then ' ' else c)

def severityRank : ArchitectureSeverity → Nat
  | .critical => 4
  | .high => 3
  | .medium => 2
  | .low => 1

def mapSeverityToPriority : ArchitectureSeverity → Priority
  | .critical => .p0
  | .high => .p1
  | .medium => .p2
  | .low => .p3

def mapSeverityToRisk : ArchitectureSeverity → EstimatedRisk
  | .critical | .high => .high
  | .medium => .medium
  | .low => .low

/-! ### The loop over the findings -/

/-- The findings by severity, the most severe first. -/
def sortFindings (findings : List ArchitectureFinding) : List ArchitectureFinding :=
  findings.mergeSort fun left right => severityRank right.severity ≤ severityRank left.severity

namespace ArchitectureFinding

variable (finding : ArchitectureFinding) (index : Nat)

def epicId : String := "epic-" ++ slugify finding.subsystem

def featureId : String := "feature-" ++ slugify finding.subsystem ++ "-" ++ toString (index + 1)

def taskId : String := "task-" ++ slugify finding.subsystem ++ "-" ++ toString (index + 1)

/-- The epic of a finding, when there is none yet. -/
def newEpic : Epic where
  id := finding.epicId
  title := humanizeSubsystem finding.subsystem ++ " hardening"
  goal := "Reduce " ++ finding.subsystem ++ " architecture risk"
  status := .todo
  featureIds := []

def feature : Feature where
  id := finding.featureId index
  epicId := finding.epicId
  title := humanizeIssueType finding.issueType
  outcome := finding.recommendation
  risks := [finding.impact]
  taskIds := [finding.taskId index]

def task (previousTaskId : Option String) : BacklogTask where
  id := finding.taskId index
  featureId := finding.featureId index
  splitFromTaskId := none
  title := "Address " ++ finding.issueType.text ++ " in " ++ finding.subsystem
  kind := .architecture
  status := .todo
  priority := mapSeverityToPriority finding.severity
  dependsOn := if truthy previousTaskId then previousTaskId.toList else []
  acceptanceCriteria :=
    ["Finding \"" ++ finding.description ++
      "\" is addressed with explicit module-boundary changes",
    "Evidence for " ++ finding.subsystem ++ " risk reduction is recorded"]
  affectedModules := finding.affectedModules
  estimatedRisk := mapSeverityToRisk finding.severity

def risk : PlanningRisk where
  id := "risk-" ++ toString (index + 1)
  title := humanizeSubsystem finding.subsystem ++ ": " ++ humanizeIssueType finding.issueType
  severity := finding.severity
  description := finding.impact
  mitigation := finding.recommendation
  relatedIds := finding.subsystem :: finding.affectedModules

end ArchitectureFinding

/-- What the loop builds. -/
structure PlanDraft where
  epicEntries : Record Epic := ∅
  features : Record Feature := ∅
  tasks : Record BacklogTask := ∅
  previousTaskId : Option String := none

/-- The body of the loop. -/
def planFinding (draft : PlanDraft) (finding : ArchitectureFinding) (index : Nat) : PlanDraft where
  epicEntries :=
    let epicEntries :=
      if draft.epicEntries.contains finding.epicId then draft.epicEntries
      else draft.epicEntries.set finding.epicId finding.newEpic
    epicEntries.modify finding.epicId fun epic =>
      { epic with featureIds := epic.featureIds ++ [finding.featureId index] }
  features := draft.features.set (finding.featureId index) (finding.feature index)
  tasks := draft.tasks.set (finding.taskId index) (finding.task index draft.previousTaskId)
  previousTaskId := some (finding.taskId index)

/-- The loop. -/
def planFindings (sortedFindings : List ArchitectureFinding) : PlanDraft :=
  sortedFindings.zipIdx.foldl (fun draft entry => planFinding draft entry.1 entry.2) {}

/-! ### Edges and assumptions -/

def buildContainmentEdges (milestone : Milestone) (backlog : Backlog) :
    List PlanningDependencyEdge :=
  milestone.epicIds.flatMap fun epicId =>
    { fromId := milestone.id, toId := epicId, type := .contains
      rationale := "Milestone tracks execution for this epic." } ::
    match backlog.epics.get? epicId with
    | none => []
    | some epic => epic.featureIds.flatMap fun featureId =>
      { fromId := epicId, toId := featureId, type := .contains
        rationale := "Epic decomposes into feature delivery slices." } ::
      match backlog.features.get? featureId with
      | none => []
      | some feature => feature.taskIds.map fun taskId =>
        { fromId := featureId, toId := taskId, type := .contains
          rationale := "Feature is delivered through executable tasks." }

def buildTaskDependencyEdges (tasks : Record BacklogTask) : List PlanningDependencyEdge :=
  tasks.values.flatMap fun task => task.dependsOn.map fun dependency =>
    { fromId := dependency, toId := task.id, type := .dependsOn
      rationale := "Task " ++ task.id ++ " depends on " ++ dependency ++ "." }

def buildPlanningAssumptions (discovery : ProjectDiscovery) (findingCount : Nat) : List String :=
  ["Architecture findings are prioritized by severity and implementation impact.",
    "Task dependency ordering remains valid unless new blocking findings are introduced."] ++
  (if discovery.packageInventory.length > 0 then
    ["Planning scope remains constrained to " ++ toString discovery.packageInventory.length ++
      " discovered packages."] else []) ++
  (if findingCount > 0 then
    ["Each architecture finding maps to at least one implementation-ready task."] else [])

/-! ### The role -/

/-- The milestone of a plan. -/
def hardeningMilestone (epicIds : List String) : Milestone where
  id := "milestone-architecture-hardening"
  title := "Architecture hardening"
  goal := "Reduce architecture risk before broader feature expansion"
  status := .inProgress
  epicIds := epicIds
  entryCriteria := ["Discovery and architecture analysis completed"]
  exitCriteria := ["All planned architecture tasks are completed"]

namespace PlannerRole

/-- **`PlannerRole.execute`**: the output of its response. There is one if the merge preview is
built in the rounds that `buildMergePreview` is given. -/
def execute (host : Host) (input : PlannerInput) : Option PlanningOutput := do
  let sortedFindings := sortFindings input.findings
  let draft := planFindings sortedFindings
  let backlog : Backlog :=
    { epics := draft.epicEntries, features := draft.features, tasks := draft.tasks }
  let milestone := hardeningMilestone backlog.epics.keys
  let mergePreview ← buildMergePreview host backlog.tasks
  return {
    milestone, backlog
    summary := "Planned " ++ toString backlog.tasks.keys.length ++
      " architecture task(s) from " ++ toString sortedFindings.length ++ " finding(s)."
    dependencyEdges :=
      buildContainmentEdges milestone backlog ++ buildTaskDependencyEdges backlog.tasks
    assumptions := buildPlanningAssumptions input.discovery sortedFindings.length
    risks := sortedFindings.mapIdx fun index finding => finding.risk index
    mergePreview }

/-- **`PlannerRole.validate`**. -/
def validate (output : PlanningOutput) : Except RuntimeError Unit :=
  if output.backlog.tasks.keys.length = 0 then
    .error (.plain "Planner output must contain at least one task")
  else
    match output.backlog.tasks.values.find? fun task => task.acceptanceCriteria.length = 0 with
    | some task => .error (.plain ("Planned task " ++ task.id ++ " is missing acceptance criteria"))
    | none =>
      if output.dependencyEdges.length = 0 then
        .error (.plain "Planner output must include dependency edges")
      else if output.assumptions.length = 0 then
        .error (.plain "Planner output must include assumptions")
      else if output.mergePreview.batches.length = 0 then
        .error (.plain "Planner output must include merge preview batches")
      else .ok ()

end PlannerRole

end AiOrchestrator
