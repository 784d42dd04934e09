import AiOrchestrator.Core.Errors
import Mathlib.Data.List.Sort

/-!
# Workflow policies

When a run has to stop, which task it takes, what a failed task leads to
(`packages/workflow/src/policies.ts`) and how a task is split in two
(`packages/workflow/src/task-splitting.ts`).
-/

namespace AiOrchestrator

/-- The limits of a run, `RuntimeConfig.workflow`. -/
structure RunLimits where
  maxStepsPerRun : Nat
  maxRetriesPerTask : Nat
deriving DecidableEq

inductive FailureAction
  | retry | split | block
deriving DecidableEq, Repr

/-- **`shouldStopRun`**: the stop reason, or `none` for a run that may go on. A count that is not a
number is not beyond the limit. -/
def shouldStopRun (state : ProjectState) (limits : RunLimits) : Option String :=
  if limits.maxStepsPerRun ≤ state.execution.stepCount then some "max_steps_per_run_reached"
  else
    match state.execution.activeTaskId with
    | some taskId =>
      if taskId ≠ "" ∧ state.RetryCounted taskId ∧
          limits.maxRetriesPerTask ≤ state.retryCount taskId then
        some "max_retries_reached"
      else none
    | none => none

/-! ### Selection -/

/-- The comparison by which `selectNextTask` sorts: higher priority first, then split
children, then fewer retries, then the id. Where a retry count is not a number, nor is the
difference of the two: it is returned as it differs from zero, and `sort` takes it for zero. -/
def compareTasks (host : Host) (state : ProjectState) (left right : BacklogTask) : Ordering :=
  (compare (priorityWeight right.priority) (priorityWeight left.priority)).then <|
  (compare (truthy right.splitFromTaskId).toNat (truthy left.splitFromTaskId).toNat).then <|
  if state.RetryCounted left.id ∧ state.RetryCounted right.id then
    (compare (state.retryCount left.id) (state.retryCount right.id)).then <|
    host.localeCompare left.id right.id
  else .eq

/-- The executable tasks of the backlog with their keys. -/
def executableEntries (state : ProjectState) : List (String × BacklogTask) :=
  state.backlog.tasks.entries.filter fun entry =>
    isExecutableTask state.execution.completedTaskIds state.execution.blockedTaskIds entry.2

/-- The entry that `selectNextTask` picks: the first executable one in sorted order. -/
def selectNextEntry (host : Host) (state : ProjectState) : Option (String × BacklogTask) :=
  ((executableEntries state).insertionSort fun left right =>
    compareTasks host state left.2 right.2 ≠ .gt).head?

/-- **`selectNextTask`**. -/
def selectNextTask (host : Host) (state : ProjectState) : Option BacklogTask :=
  (selectNextEntry host state).map Prod.snd

theorem mem_executableEntries {state : ProjectState} {key : String} {task : BacklogTask} :
    (key, task) ∈ executableEntries state ↔
      state.backlog.tasks.get? key = some task ∧
        isExecutableTask state.execution.completedTaskIds state.execution.blockedTaskIds task =
          true := by
  rw [executableEntries, List.mem_filter, Dict.get?_eq_some_iff]

/-- The selected task is an executable task of the backlog. -/
theorem selectNextEntry_mem {host : Host} {state : ProjectState} {entry : String × BacklogTask}
    (h : selectNextEntry host state = some entry) : entry ∈ executableEntries state := by
  have hmem := List.mem_of_mem_head? (Option.mem_def.mpr h)
  exact (List.mem_insertionSort _).mp hmem

/-- Some task is selected as soon as some task is executable. -/
theorem selectNextEntry_isSome_iff {host : Host} {state : ProjectState} :
    (selectNextEntry host state).isSome ↔ ∃ entry, entry ∈ executableEntries state := by
  rw [selectNextEntry, List.isSome_head?]
  constructor
  · intro h
    obtain ⟨entry, hmem⟩ := List.exists_mem_of_ne_nil _ h
    exact ⟨entry, (List.mem_insertionSort _).mp hmem⟩
  · rintro ⟨entry, hmem⟩
    exact List.ne_nil_of_mem ((List.mem_insertionSort _).mpr hmem)

theorem selectNextTask_isSome_iff {host : Host} {state : ProjectState} :
    (selectNextTask host state).isSome ↔ ∃ entry, entry ∈ executableEntries state := by
  rw [selectNextTask, Option.isSome_map, selectNextEntry_isSome_iff]

/-! ### Routing and failure actions -/

def routeTaskToRole (task : BacklogTask) : AgentRoleName :=
  match task.kind with
  | .architecture => .architect
  | .planning => .planner
  | .documentation => .docsWriter
  | .testing => .tester
  | _ => .coder

def requiresReview (task : BacklogTask) : Bool := task.kind ≠ .documentation

def requiresTesting (task : BacklogTask) : Bool :=
  task.kind = .implementation || task.kind = .testing

/-- **`nextFailureAction`**: retry below the limit, then split an original task and
block a split child. -/
def nextFailureAction (task : BacklogTask) (retryCount maxRetriesPerTask : Nat) : FailureAction :=
  if retryCount + 1 < maxRetriesPerTask then .retry
  else if truthy task.splitFromTaskId then .block
  else .split

/-! ### Splitting a task -/

/-- `SplitTaskPlan`. -/
structure SplitTaskPlan where
  parentTaskId : String
  completionTaskId : String
  firstChild : BacklogTask
  secondChild : BacklogTask
  rationale : String
deriving DecidableEq

/-- The two children of the plan, in order. -/
def SplitTaskPlan.childTasks (plan : SplitTaskPlan) : List BacklogTask :=
  [plan.firstChild, plan.secondChild]

/-- The criterion of the first child of a task with at most one criterion. -/
def narrowCriterion : String := "Implement the narrowest viable change for the parent task"

/-- The criterion added to the second child of a task with at most one criterion. -/
def integrationCriterion : String :=
  "Validate the remaining integration path after the narrow change"

def splitAcceptanceCriteria (criteria : List String) : List String × List String :=
  if criteria.length ≤ 1 then ([narrowCriterion], criteria ++ [integrationCriterion])
  else
    let midpoint := (criteria.length + 1) / 2
    (criteria.take midpoint, criteria.drop midpoint)

def boostPriority : Priority → Priority
  | .p3 => .p2
  | .p2 => .p1
  | priority => priority

def firstChildId (taskId : String) : String := taskId ++ "--part-1"

def secondChildId (taskId : String) : String := taskId ++ "--part-2"

/-- **`splitTaskForRetry`**. -/
def splitTaskForRetry (task : BacklogTask) (reason : String) : SplitTaskPlan where
  parentTaskId := task.id
  completionTaskId := secondChildId task.id
  firstChild :=
    { task with
      id := firstChildId task.id
      splitFromTaskId := some task.id
      title := task.title ++ " [part 1]"
      priority := boostPriority task.priority
      dependsOn := task.dependsOn
      acceptanceCriteria := (splitAcceptanceCriteria task.acceptanceCriteria).1
      status := .todo }
  secondChild :=
    { task with
      id := secondChildId task.id
      splitFromTaskId := some task.id
      title := task.title ++ " [part 2]"
      priority := boostPriority task.priority
      dependsOn := [firstChildId task.id]
      acceptanceCriteria := (splitAcceptanceCriteria task.acceptanceCriteria).2
      status := .todo }
  rationale := s!"Task {task.id} was split after repeated failure: {reason}"

/-- An id that ends like the id of a split child. -/
def endsInSplitSuffix (id : String) : Bool :=
  Text.endsWith id "--part-1" || Text.endsWith id "--part-2"

@[simp] theorem endsInSplitSuffix_firstChildId (id : String) :
    endsInSplitSuffix (firstChildId id) = true := by
  rw [endsInSplitSuffix, Bool.or_eq_true]
  exact Or.inl (Text.endsWith_iff.mpr ⟨id, rfl⟩)

@[simp] theorem endsInSplitSuffix_secondChildId (id : String) :
    endsInSplitSuffix (secondChildId id) = true := by
  rw [endsInSplitSuffix, Bool.or_eq_true]
  exact Or.inr (Text.endsWith_iff.mpr ⟨id, rfl⟩)

/-- No inherited name looks like a split child's id. -/
theorem notMem_inheritedNames {id : String} (h : endsInSplitSuffix id = true) :
    id ∉ inheritedNames := by
  have hnames : ∀ name ∈ inheritedNames, endsInSplitSuffix name = false := by decide
  intro hmem
  rw [hnames id hmem] at h
  cases h

theorem firstChildId_injective {a b : String} (h : firstChildId a = firstChildId b) : a = b :=
  String.append_left_inj _ |>.mp h

theorem secondChildId_injective {a b : String} (h : secondChildId a = secondChildId b) : a = b :=
  String.append_left_inj _ |>.mp h

/-- The two children never share an id, not even those of different tasks. -/
theorem firstChildId_ne_secondChildId (a b : String) : firstChildId a ≠ secondChildId b := by
  intro h
  have hlast := congrArg (fun s : String => s.toList.getLast?) h
  simp [firstChildId, secondChildId] at hlast

theorem firstChildId_ne_self (a : String) : firstChildId a ≠ a := by
  intro h
  have hlen := congrArg (fun s : String => s.toList.length) h
  simp [firstChildId] at hlen

theorem secondChildId_ne_self (a : String) : secondChildId a ≠ a := by
  intro h
  have hlen := congrArg (fun s : String => s.toList.length) h
  simp [secondChildId] at hlen

section SplitPlan

variable (task : BacklogTask) (reason : String)

@[simp] theorem splitTaskForRetry_parentTaskId :
    (splitTaskForRetry task reason).parentTaskId = task.id := rfl

@[simp] theorem splitTaskForRetry_completionTaskId :
    (splitTaskForRetry task reason).completionTaskId = secondChildId task.id := rfl

@[simp] theorem splitTaskForRetry_firstChild_id :
    (splitTaskForRetry task reason).firstChild.id = firstChildId task.id := rfl

@[simp] theorem splitTaskForRetry_secondChild_id :
    (splitTaskForRetry task reason).secondChild.id = secondChildId task.id := rfl

@[simp] theorem splitTaskForRetry_firstChild_status :
    (splitTaskForRetry task reason).firstChild.status = .todo := rfl

@[simp] theorem splitTaskForRetry_secondChild_status :
    (splitTaskForRetry task reason).secondChild.status = .todo := rfl

@[simp] theorem splitTaskForRetry_firstChild_dependsOn :
    (splitTaskForRetry task reason).firstChild.dependsOn = task.dependsOn := rfl

@[simp] theorem splitTaskForRetry_secondChild_dependsOn :
    (splitTaskForRetry task reason).secondChild.dependsOn = [firstChildId task.id] := rfl

@[simp] theorem splitTaskForRetry_firstChild_splitFromTaskId :
    (splitTaskForRetry task reason).firstChild.splitFromTaskId = some task.id := rfl

@[simp] theorem splitTaskForRetry_secondChild_splitFromTaskId :
    (splitTaskForRetry task reason).secondChild.splitFromTaskId = some task.id := rfl

@[simp] theorem splitTaskForRetry_childTasks :
    (splitTaskForRetry task reason).childTasks =
      [(splitTaskForRetry task reason).firstChild, (splitTaskForRetry task reason).secondChild] :=
  rfl

end SplitPlan

/-- The two halves of two or more criteria put together are the criteria. -/
theorem splitAcceptanceCriteria_append {criteria : List String} (h : 2 ≤ criteria.length) :
    (splitAcceptanceCriteria criteria).1 ++ (splitAcceptanceCriteria criteria).2 = criteria := by
  rw [splitAcceptanceCriteria, if_neg (by omega)]
  exact List.take_append_drop _ _

/-- Neither half is empty. -/
theorem splitAcceptanceCriteria_ne_nil (criteria : List String) :
    (splitAcceptanceCriteria criteria).1 ≠ [] ∧ (splitAcceptanceCriteria criteria).2 ≠ [] := by
  unfold splitAcceptanceCriteria
  split
  · exact ⟨by simp, by simp⟩
  · next h =>
    constructor
    · intro hnil
      have := congrArg List.length hnil
      rw [List.length_take, List.length_nil] at this
      omega
    · intro hnil
      have := congrArg List.length hnil
      rw [List.length_drop, List.length_nil] at this
      omega

/-- The criteria of the children are non-empty texts when the parent's are. -/
theorem splitAcceptanceCriteria_nonempty {criteria : List String}
    (h : ∀ text ∈ criteria, text ≠ "") :
    (∀ text ∈ (splitAcceptanceCriteria criteria).1, text ≠ "") ∧
      ∀ text ∈ (splitAcceptanceCriteria criteria).2, text ≠ "" := by
  unfold splitAcceptanceCriteria
  split
  · constructor
    · intro text hmem
      rw [List.mem_singleton.mp hmem]
      decide
    · intro text hmem
      rcases List.mem_append.mp hmem with hmem | hmem
      · exact h text hmem
      · rw [List.mem_singleton.mp hmem]
        decide
  · exact ⟨fun text hmem => h text (List.mem_of_mem_take hmem),
      fun text hmem => h text (List.mem_of_mem_drop hmem)⟩

end AiOrchestrator
