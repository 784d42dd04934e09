import AiOrchestrator.Core.Artifacts
import AiOrchestrator.Workflow.Policies

/-!
# Bookkeeping of tasks

What the ends of a run and the operator's actions do to a project state, apart from
the texts they record: completing a task, noting a failure, splitting and blocking
a task, resuming and replaying a failure, marking a task done.

In the program these are the assignments in the middle of `TaskRunner.run`,
`FailureHandler.handle`, `ControlPlaneService` and the stores. The runs and services
of the model call the functions below at the same places.

A run holds its task as an object of the backlog of the state it works on, so that
assigning the task's status changes the state. The selectors find the object under the
key it is stored at, which need not be its id; a `TaskHandle` carries both.
-/

namespace AiOrchestrator

/-- A task as a run holds it: its fields, and the key under which the state's backlog
stores it. -/
structure TaskHandle where
  task : BacklogTask
  key : String
deriving DecidableEq

namespace ProjectState

/-- `task.status = status`. -/
def setTaskStatus (state : ProjectState) (handle : TaskHandle) (status : BacklogTaskStatus) :
    ProjectState :=
  { state with
    backlog := { state.backlog with
      tasks := state.backlog.tasks.modify handle.key fun task => { task with status := status } } }

/-- Push an id unless the list has it. -/
def pushNew (ids : List String) (id : String) : List String :=
  if ids.contains id then ids else ids ++ [id]

theorem mem_pushNew {ids : List String} {id x : String} : x ∈ pushNew ids id ↔ x ∈ ids ∨ x = id := by
  unfold pushNew
  split
  · next h =>
    have hmem : id ∈ ids := by simpa using h
    constructor
    · exact Or.inl
    · rintro (h | rfl)
      · exact h
      · exact hmem
  · simp

theorem nodup_pushNew {ids : List String} (h : ids.Nodup) (id : String) : (pushNew ids id).Nodup := by
  unfold pushNew
  split
  · exact h
  · next hnot =>
    have hnotMem : id ∉ ids := by simpa using hnot
    rw [List.nodup_append]
    refine ⟨h, List.nodup_singleton id, ?_⟩
    rintro a ha b hb rfl
    rw [List.mem_singleton.mp hb] at ha
    exact hnotMem ha

/-- **Completion** in `TaskRunner.run`: the task is done, its id completed, no task is
active and one more step is counted. -/
def completeTask (state : ProjectState) (handle : TaskHandle) : ProjectState :=
  let state := state.setTaskStatus handle .done
  { state with
    execution := { state.execution with
      completedTaskIds := pushNew state.execution.completedTaskIds handle.task.id
      activeTaskId := none
      stepCount := state.execution.stepCount + 1 } }

/-- What a store does to its state in `recordFailure`. -/
def countFailure (state : ProjectState) (failure : FailureRecord) : ProjectState :=
  { state with
    failures := state.failures ++ [failure]
    execution := { state.execution with
      retryCounts := state.execution.retryCounts.set failure.taskId
        (state.retryCount failure.taskId + 1) } }

/-- What `FailureHandler.handle` does to the run's state after `recordFailure`. -/
def noteFailure (state : ProjectState) (taskId : String) (failure : FailureRecord)
    (retryCount : Nat) : ProjectState :=
  { state with
    failures := state.failures ++ [failure]
    execution := { state.execution with
      retryCounts := state.execution.retryCounts.set taskId retryCount
      activeTaskId := none } }

/-- The dependencies of one candidate after a split: the completion task stands in place
of the superseded one, and each dependency stands once. -/
def rewriteCandidate (supersededTaskId completionTaskId : String) (childTaskIds : List String)
    (candidate : BacklogTask) : BacklogTask :=
  if candidate.id = supersededTaskId ∨ candidate.id ∈ childTaskIds then candidate
  else if supersededTaskId ∈ candidate.dependsOn then
    { candidate with
      dependsOn := (candidate.dependsOn.map fun dependency =>
        if dependency = supersededTaskId then completionTaskId else dependency).eraseDups }
  else candidate

/-- **`rewriteSupersededDependencies`**: every other task depends on the completion task
in place of the superseded one. -/
def rewriteSupersededDependencies (state : ProjectState)
    (supersededTaskId completionTaskId : String) (childTasks : List BacklogTask) : ProjectState :=
  { state with
    backlog := { state.backlog with
      tasks := state.backlog.tasks.mapVals fun _ candidate =>
        rewriteCandidate supersededTaskId completionTaskId (childTasks.map BacklogTask.id)
          candidate } }

/-- One turn of the loop over the children: store the child and list it in the
parent's feature. -/
def addChildTask (state : ProjectState) (featureId : String) (childTask : BacklogTask) :
    ProjectState :=
  { state with
    backlog := { state.backlog with
      tasks := state.backlog.tasks.set childTask.id childTask
      features := state.backlog.features.modify featureId fun feature =>
        { feature with taskIds := pushNew feature.taskIds childTask.id } } }

/-- **Split**: the task is superseded by the two children of the plan. -/
def splitTask (state : ProjectState) (handle : TaskHandle) (plan : SplitTaskPlan) : ProjectState :=
  let state := state.setTaskStatus handle .superseded
  let state :=
    { state with
      execution := { state.execution with
        blockedTaskIds := state.execution.blockedTaskIds.filter (· ≠ handle.task.id) } }
  let state := plan.childTasks.foldl
    (fun state childTask => state.addChildTask handle.task.featureId childTask) state
  state.rewriteSupersededDependencies handle.task.id plan.completionTaskId plan.childTasks

/-- **Block**: the task is blocked and its id listed. -/
def blockTask (state : ProjectState) (handle : TaskHandle) : ProjectState :=
  let state := state.setTaskStatus handle .blocked
  { state with
    execution := { state.execution with
      blockedTaskIds := pushNew state.execution.blockedTaskIds handle.task.id } }

/-- The artifact that `splitTaskForFailure` adds. -/
def splitArtifact (id createdAt taskId reason : String) (plan : SplitTaskPlan) : ArtifactRecord :=
  makeArtifact id createdAt .report s!"Task split for {taskId}"
    [("taskId", taskId), ("reason", reason),
      ("childTaskIds", String.intercalate "," (plan.childTasks.map BacklogTask.id))]

/-- The decision that `splitTaskForFailure` adds. -/
def splitDecision (id createdAt : String) (task : BacklogTask) (plan : SplitTaskPlan) :
    DecisionLogItem where
  id := id
  title := s!"Split task {task.id}"
  decision :=
    s!"Split {task.id} into " ++ String.intercalate ", " (plan.childTasks.map BacklogTask.id)
  rationale := plan.rationale
  affectedAreas := task.affectedModules
  createdAt := createdAt

/-- The artifact that `blockTaskForFailure` adds. -/
def escalationArtifact (id createdAt taskId reason : String) : ArtifactRecord :=
  makeArtifact id createdAt .report s!"Escalation for {taskId}"
    [("taskId", taskId), ("reason", reason)]

/-- Change the first failure with an id. -/
def modifyFailure (state : ProjectState) (failureId : String) (f : FailureRecord → FailureRecord) :
    ProjectState :=
  { state with
    failures :=
      match state.failures.findIdx? fun failure => failure.id = failureId with
      | some i => state.failures.modify i f
      | none => state.failures }

/-- **`ControlPlaneService.resumeFailure`** on the loaded state. -/
def resumeFailure (state : ProjectState) (failureId now : String) :
    Except RuntimeError (ProjectState × FailureRecord) :=
  match state.failures.find? fun failure => failure.id = failureId with
  | none => .error (.workflowPolicy s!"Failure {failureId} not found")
  | some failure =>
    if failure.statusOrDefault ≠ .deadLettered then
      .error (.workflowPolicy s!"Failure {failureId} is not dead-lettered")
    else
      let state := state.modifyFailure failureId fun failure =>
        { failure with status := some .resumed, resumedAt := some now }
      match state.backlog.tasks.get? failure.taskId with
      | none => .ok (state, failure)
      | some task =>
        if task.status = .blocked then
          let state := state.setTaskStatus { task, key := failure.taskId } .todo
          .ok ({ state with
            execution := { state.execution with
              blockedTaskIds := state.execution.blockedTaskIds.filter (· ≠ task.id) } }, failure)
        else .ok (state, failure)

/-- **`ControlPlaneService.replayFromFailureCheckpoint`** on the loaded state. -/
def replayFromFailureCheckpoint (state : ProjectState) (failureId now : String) :
    Except RuntimeError (ProjectState × FailureRecord) :=
  match state.failures.find? fun failure => failure.id = failureId with
  | none => .error (.workflowPolicy s!"Failure {failureId} not found")
  | some failure =>
    if failure.statusOrDefault ≠ .deadLettered then
      .error (.workflowPolicy s!"Failure {failure.id} is not dead-lettered")
    else
      let state := state.modifyFailure failureId fun failure =>
        { failure with status := some .replayed, replayedAt := some now }
      .ok ({ state with
        execution := { state.execution with
          activeRunId :=
            if truthy failure.checkpointRunId then failure.checkpointRunId else none
          activeTaskId := some failure.taskId } }, failure)

/-- `markTaskDone` on the state of a store, with the summary artifact it records. -/
def markTaskDone (state : ProjectState) (taskId : String) (summaryArtifact : ArtifactRecord) :
    ProjectState :=
  { state with
    backlog := { state.backlog with
      tasks := state.backlog.tasks.modify taskId fun task => { task with status := .done } }
    execution := { state.execution with
      completedTaskIds := pushNew state.execution.completedTaskIds taskId
      activeTaskId := none }
    artifacts := state.artifacts ++ [summaryArtifact] }

end ProjectState

/-- The summary artifact of `markTaskDone`. -/
def taskSummaryArtifact (id createdAt taskId summary : String) : ArtifactRecord :=
  makeArtifact id createdAt .runSummary s!"Task {taskId} completion summary"
    [("taskId", taskId), ("summary", summary)]

end AiOrchestrator
