import AiOrchestrator.Lib.DictWeights
import AiOrchestrator.Workflow.Dependencies

/-!
# Attempts

The abstract model of one cycle. Relative to the state that the store held when a cycle began, what it
holds at a later moment shows an **attempt** at one task: nothing yet, a counted failure, a failure
and the verdict on it, or the completed task (`Attempt.apply`); everything else that changed was
recorded on the side (`Beside`). A justified attempt is a short run of outcomes
(`Attempt.Justified.outcomes`), so that it keeps acceptance and consistency.

`workLeft` counts how many verdicts the open tasks of a family can still bring: no attempt adds to
it, and every one that settles its task takes from it (`Attempt.Justified.workLeft_lt`).
-/

namespace AiOrchestrator

namespace ProjectState

/-! ### What is recorded on the side -/

/-- **Beside the work**: the bookkeeping, the frame and the number of steps stay, and artifacts are
only added. -/
structure Beside (state state' : ProjectState) : Prop where
  book : state.SameBook state'
  frame : state.SameFrame state'
  artifacts : ∀ artifact ∈ state.artifacts, artifact ∈ state'.artifacts
  steps : state'.execution.stepCount = state.execution.stepCount

variable {state state' state'' : ProjectState}

theorem SameBook.refl (state : ProjectState) : state.SameBook state := ⟨rfl, rfl, rfl, rfl, rfl⟩

theorem SameBook.trans (h : state.SameBook state') (h' : state'.SameBook state'') :
    state.SameBook state'' :=
  ⟨h'.backlog.trans h.backlog, h'.completed.trans h.completed, h'.blocked.trans h.blocked,
    h'.retryCounts.trans h.retryCounts, h'.failures.trans h.failures⟩

theorem SameFrame.trans (h : state.SameFrame state') (h' : state'.SameFrame state'') :
    state.SameFrame state'' :=
  ⟨h'.orgId.trans h.orgId, h'.projectId.trans h.projectId, h'.milestones.trans h.milestones,
    h'.currentMilestoneId.trans h.currentMilestoneId, h'.discovery.trans h.discovery,
    h'.architecture.trans h.architecture⟩

theorem SameBook.retryCount (h : state.SameBook state') (id : String) :
    state'.retryCount id = state.retryCount id := by
  unfold ProjectState.retryCount
  rw [h.retryCounts]

namespace Beside

theorem refl (state : ProjectState) : state.Beside state :=
  ⟨.refl state, .refl state, fun _ h => h, rfl⟩

theorem trans (h : state.Beside state') (h' : state'.Beside state'') : state.Beside state'' :=
  ⟨h.book.trans h'.book, h.frame.trans h'.frame,
    fun artifact hmem => h'.artifacts artifact (h.artifacts artifact hmem),
    h'.steps.trans h.steps⟩

theorem recorded (h : state.Beside state') (hrecords : state'.RecordsOk) : state.Recorded state' :=
  ⟨h.book, h.frame, h.artifacts, hrecords⟩

/-! What is done to the bookkeeping of a state is done to that of one beside it. -/

theorem completeTask (h : state.Beside state') (handle : TaskHandle) :
    (state.completeTask handle).Beside (state'.completeTask handle) := by
  refine ⟨⟨?_, ?_, h.book.blocked, h.book.retryCounts, h.book.failures⟩, ?_, h.artifacts, ?_⟩
  · show (state'.setTaskStatus handle .done).backlog = (state.setTaskStatus handle .done).backlog
    rw [setTaskStatus, setTaskStatus, h.book.backlog]
  · exact congrArg (pushNew · handle.task.id) h.book.completed
  · obtain ⟨h₁, h₂, h₃, h₄, h₅, h₆⟩ := h.frame
    exact ⟨h₁, h₂, h₃, h₄, h₅, h₆⟩
  · exact congrArg (· + 1) h.steps

theorem blockTask (h : state.Beside state') (handle : TaskHandle) :
    (state.blockTask handle).Beside (state'.blockTask handle) := by
  refine ⟨⟨?_, h.book.completed, ?_, h.book.retryCounts, h.book.failures⟩, ?_, h.artifacts, h.steps⟩
  · show (state'.setTaskStatus handle .blocked).backlog =
      (state.setTaskStatus handle .blocked).backlog
    rw [setTaskStatus, setTaskStatus, h.book.backlog]
  · exact congrArg (pushNew · handle.task.id) h.book.blocked
  · obtain ⟨h₁, h₂, h₃, h₄, h₅, h₆⟩ := h.frame
    exact ⟨h₁, h₂, h₃, h₄, h₅, h₆⟩

theorem countFailure (h : state.Beside state') (failure : FailureRecord) :
    (state.countFailure failure).Beside (state'.countFailure failure) := by
  refine ⟨⟨h.book.backlog, h.book.completed, h.book.blocked, ?_, ?_⟩, ?_, h.artifacts, h.steps⟩
  · show state'.execution.retryCounts.set _ _ = state.execution.retryCounts.set _ _
    rw [h.book.retryCounts, h.book.retryCount]
  · exact congrArg (· ++ [failure]) h.book.failures
  · obtain ⟨h₁, h₂, h₃, h₄, h₅, h₆⟩ := h.frame
    exact ⟨h₁, h₂, h₃, h₄, h₅, h₆⟩

/-- Noting a failure with its count in the run's copy is counting it. -/
theorem noteFailure (h : state.Beside state') (failure : FailureRecord) :
    (state.countFailure failure).Beside
      (state'.noteFailure failure.taskId failure (state.retryCount failure.taskId + 1)) := by
  obtain ⟨hbook, hframe, hartifacts, hsteps⟩ := h.countFailure failure
  refine ⟨⟨hbook.backlog, hbook.completed, hbook.blocked, ?_, hbook.failures⟩, ?_, hartifacts, hsteps⟩
  · show state'.execution.retryCounts.set _ _ = state.execution.retryCounts.set _ _
    rw [h.book.retryCounts]
  · obtain ⟨h₁, h₂, h₃, h₄, h₅, h₆⟩ := hframe
    exact ⟨h₁, h₂, h₃, h₄, h₅, h₆⟩

end Beside

/-- A split looks at the backlog alone. -/
theorem backlog_splitTask_congr (hbacklog : state'.backlog = state.backlog) (handle : TaskHandle)
    (plan : SplitTaskPlan) :
    (state'.splitTask handle plan).backlog = (state.splitTask handle plan).backlog := by
  simp only [splitTask, SplitTaskPlan.childTasks, List.foldl_cons, List.foldl_nil, addChildTask,
    rewriteSupersededDependencies, setTaskStatus, hbacklog]

theorem Beside.splitTask (h : state.Beside state') (handle : TaskHandle) (plan : SplitTaskPlan) :
    (state.splitTask handle plan).Beside (state'.splitTask handle plan) := by
  have hbacklog := backlog_splitTask_congr h.book.backlog handle plan
  rw [splitTask_eq state handle plan, splitTask_eq state' handle plan]
  refine ⟨⟨hbacklog, h.book.completed, ?_, h.book.retryCounts, h.book.failures⟩, ?_, h.artifacts,
    h.steps⟩
  · exact congrArg (List.filter (· ≠ handle.task.id)) h.book.blocked
  · obtain ⟨h₁, h₂, h₃, h₄, h₅, h₆⟩ := h.frame
    exact ⟨h₁, h₂, h₃, h₄, h₅, h₆⟩

/-! ### Attempts -/

/-- A task as a run may hold it: an executable one of the state's backlog. -/
def Executable (state : ProjectState) (handle : TaskHandle) : Prop :=
  state.backlog.tasks.get? handle.key = some handle.task ∧
    isExecutableTask state.execution.completedTaskIds state.execution.blockedTaskIds handle.task =
      true

theorem Consistent.ownTodo (h : state.Consistent) {handle : TaskHandle}
    (hexecutable : state.Executable handle) : state.OwnTodo handle := by
  obtain ⟨hget, hexec⟩ := hexecutable
  obtain ⟨htodo, -⟩ := isExecutableTask_iff.mp hexec
  have hkey : handle.task.id = handle.key := h.keys _ _ hget
  exact ⟨hkey.symm, hkey ▸ hget, htodo⟩

/-- Counting a failure leaves the task a run holds. -/
theorem OwnTodo.countFailure {handle : TaskHandle} (h : state.OwnTodo handle)
    (failure : FailureRecord) : (state.countFailure failure).OwnTodo handle :=
  ⟨h.own, h.stored, h.todo⟩

end ProjectState

/-- **Attempts** at a task, as far as a store shows them. -/
inductive Attempt
  /-- Nothing happened to the bookkeeping. -/
  | untouched
  /-- A failure was counted. -/
  | failed (handle : TaskHandle) (failure : FailureRecord)
  /-- A failure was counted, and the task split. -/
  | split (handle : TaskHandle) (failure : FailureRecord) (reason : String)
  /-- A failure was counted, and the task blocked. -/
  | blocked (handle : TaskHandle) (failure : FailureRecord)
  | completed (handle : TaskHandle)

namespace Attempt

open ProjectState

/-- The bookkeeping after an attempt. -/
def apply : Attempt → ProjectState → ProjectState
  | .untouched, state => state
  | .failed _ failure, state => state.countFailure failure
  | .split handle failure reason, state =>
    (state.countFailure failure).splitTask handle (splitTaskForRetry handle.task reason)
  | .blocked handle failure, state => (state.countFailure failure).blockTask handle
  | .completed handle, state => state.completeTask handle

/-- The task of an attempt. -/
def taskId? : Attempt → Option String
  | .untouched => none
  | .failed handle _ | .split handle _ _ | .blocked handle _ | .completed handle =>
    some handle.task.id

/-- What the failure handler decides about a task that the state counts its retries for. -/
def verdict (maxRetriesPerTask : Nat) (start : ProjectState) (handle : TaskHandle) : FailureAction :=
  nextFailureAction handle.task (start.retryCount handle.task.id) maxRetriesPerTask

/-- **A failure of the task**, which is dead-lettered exactly if it calls for a block. -/
structure FailureOf (maxRetriesPerTask : Nat) (start : ProjectState) (handle : TaskHandle)
    (failure : FailureRecord) : Prop where
  task : failure.taskId = handle.task.id
  letter : failure.statusOrDefault = .deadLettered ↔
    verdict maxRetriesPerTask start handle = .block

/-- **Justified**: the attempt is at an executable task of a state with steps left, its failure is one
of that task, and a split or a block is what the retries counted at the start call for. -/
inductive Justified (limits : RunLimits) (start : ProjectState) : Attempt → Prop
  | untouched : Justified limits start .untouched
  | failed {handle : TaskHandle} {failure : FailureRecord} (executable : start.Executable handle)
      (steps : start.execution.stepCount < limits.maxStepsPerRun)
      (of : FailureOf limits.maxRetriesPerTask start handle failure) :
      Justified limits start (.failed handle failure)
  | split {handle : TaskHandle} {failure : FailureRecord} {reason : String}
      (executable : start.Executable handle)
      (steps : start.execution.stepCount < limits.maxStepsPerRun)
      (of : FailureOf limits.maxRetriesPerTask start handle failure)
      (called : verdict limits.maxRetriesPerTask start handle = .split) :
      Justified limits start (.split handle failure reason)
  | blocked {handle : TaskHandle} {failure : FailureRecord} (executable : start.Executable handle)
      (steps : start.execution.stepCount < limits.maxStepsPerRun)
      (of : FailureOf limits.maxRetriesPerTask start handle failure)
      (called : verdict limits.maxRetriesPerTask start handle = .block) :
      Justified limits start (.blocked handle failure)
  | completed {handle : TaskHandle} (executable : start.Executable handle)
      (steps : start.execution.stepCount < limits.maxStepsPerRun) :
      Justified limits start (.completed handle)

/-- The attempt has **settled** what becomes of the task for now: it is completed, or the verdict on its
failure is carried out. -/
def Settles (maxRetriesPerTask : Nat) (start : ProjectState) : Attempt → Prop
  | .untouched => False
  | .failed handle _ => verdict maxRetriesPerTask start handle = .retry
  | .split _ _ _ | .blocked _ _ | .completed _ => True

variable {limits : RunLimits} {maxRetriesPerTask : Nat} {start current : ProjectState}
  {handle : TaskHandle} {attempt : Attempt}

theorem failures_apply (attempt : Attempt) (state : ProjectState) :
    (attempt.apply state).failures =
      match attempt with
      | .untouched | .completed _ => state.failures
      | .failed _ failure | .split _ failure _ | .blocked _ failure =>
        state.failures ++ [failure] := by
  cases attempt with
  | split handle failure reason => exact failures_splitTask _ handle _
  | untouched | failed handle failure | blocked handle failure | completed handle => rfl

/-- Only a completion counts as a step. -/
theorem stepCount_apply (attempt : Attempt) (state : ProjectState) :
    (attempt.apply state).execution.stepCount =
      state.execution.stepCount + (match attempt with
        | .completed _ => 1
        | _ => 0) := by
  cases attempt with
  | split handle failure reason =>
    rw [apply, splitTask_eq]
    rfl
  | untouched | failed handle failure | blocked handle failure | completed handle => rfl

theorem verdict_retry_iff : verdict maxRetriesPerTask start handle = .retry ↔
    start.retryCount handle.task.id + 1 < maxRetriesPerTask := by
  unfold verdict nextFailureAction
  split_ifs with hbelow hchild
  · exact iff_of_true rfl hbelow
  · exact iff_of_false (by decide) hbelow
  · exact iff_of_false (by decide) hbelow

/-- A task that is split has not been split from another. -/
theorem whole_of_split (hvalid : start.Valid) (hexecutable : start.Executable handle)
    (h : verdict maxRetriesPerTask start handle = .split) : handle.task.splitFromTaskId = none := by
  unfold verdict nextFailureAction at h
  split_ifs at h with hretry hchild
  cases hsplit : handle.task.splitFromTaskId with
  | none => rfl
  | some parent =>
    have hmem := Dict.mem_values_of_get? hexecutable.1
    have hne : parent ≠ "" := (hvalid.schema.tasks handle.task hmem).2.2.1 parent hsplit
    rw [hsplit] at hchild
    exact absurd (by simpa [truthy] using hne) hchild

theorem recordsOk_countFailure (hvalid : start.Valid) {failure : FailureRecord}
    (hschema : failure.SchemaOk) : (start.countFailure failure).RecordsOk := by
  obtain ⟨h₁, h₂, h₃, h₄, h₅, h₆, h₇, h₈, h₉⟩ := hvalid.recordsOk
  refine ⟨h₁, fun recorded hmem => ?_, h₃, h₄, h₅, h₆, h₇, h₈, h₉⟩
  rcases List.mem_append.mp hmem with hmem | hmem
  · exact h₂ recorded hmem
  · rw [List.mem_singleton.mp hmem]
    exact hschema

/-- **An attempt is a run of outcomes.** -/
theorem Justified.outcomes (hjustified : attempt.Justified limits start) (hvalid : start.Valid)
    (hconsistent : start.Consistent) (h : (attempt.apply start).Recorded current) :
    Outcomes OutcomeKind.OfRun start current := by
  -- A verdict follows the failure that led to it, which is still on record.
  have hcounted : ∀ failure, (attempt.apply start).failures = start.failures ++ [failure] →
      Outcome .failed start (start.countFailure failure) := by
    intro failure hfailures
    refine .failed failure ((Beside.refl _).recorded (recordsOk_countFailure hvalid ?_))
    refine h.records.failures failure ?_
    rw [h.book.failures, hfailures]
    exact List.mem_append_right _ List.mem_cons_self
  cases hjustified with
  | untouched => exact .single ⟨.recorded, trivial, .recorded h⟩
  | failed hexecutable hsteps hof => exact .single ⟨.failed, trivial, .failed _ h⟩
  | completed hexecutable hsteps =>
    exact .single ⟨.completed, trivial, .completed (hconsistent.ownTodo hexecutable) h⟩
  | @split handle failure reason hexecutable hsteps hof hcalled =>
    have hown := (hconsistent.ownTodo hexecutable).countFailure failure
    have hcount := hcounted failure (failures_apply (.split handle failure reason) start)
    exact (Relation.ReflTransGen.single ⟨.failed, trivial, hcount⟩).tail
      ⟨.split, trivial, .split reason hown (whole_of_split hvalid hexecutable hcalled) h⟩
  | @blocked handle failure hexecutable hsteps hof hcalled =>
    have hown := (hconsistent.ownTodo hexecutable).countFailure failure
    have hcount := hcounted failure (failures_apply (.blocked handle failure) start)
    have hne : (start.countFailure failure).failureCount handle.task.id ≠ 0 := by
      refine Nat.pos_iff_ne_zero.mp (List.countP_pos_iff.mpr ⟨failure, ?_, decide_eq_true hof.task⟩)
      exact List.mem_append_right _ List.mem_cons_self
    exact (Relation.ReflTransGen.single ⟨.failed, trivial, hcount⟩).tail
      ⟨.blocked, trivial, .blocked hown hne h⟩

end Attempt

/-! ### The work that is left -/

namespace ProjectState

/-- The verdicts that a task can still bring, about itself and the children it may be split into. -/
def attemptsLeft (maxRetriesPerTask retryCount : Nat) (task : BacklogTask) : Nat :=
  if task.status = .todo then
    max 1 (max 1 maxRetriesPerTask - retryCount) +
      if truthy task.splitFromTaskId then 0 else 2 * max 1 maxRetriesPerTask
  else 0

/-- **The work left** for the tasks of a family. -/
def workLeft (maxRetriesPerTask : Nat) (family : String → Bool) (state : ProjectState) : Nat :=
  state.backlog.tasks.weight fun key task =>
    if family key then attemptsLeft maxRetriesPerTask (state.retryCount key) task else 0

/-- With a task that can be split a family has its children, and with a child its parent. -/
def FamilyClosed (family : String → Bool) : Prop :=
  ∀ id, endsInSplitSuffix id = false →
    family (firstChildId id) = family id ∧ family (secondChildId id) = family id

variable {maxRetriesPerTask : Nat} {family : String → Bool} {state state' start current : ProjectState}

theorem SameBook.workLeft (h : state.SameBook state') :
    state'.workLeft maxRetriesPerTask family = state.workLeft maxRetriesPerTask family := by
  unfold ProjectState.workLeft
  rw [h.backlog]
  exact Dict.weight_congr fun key task _ => by rw [h.retryCount]

variable (maxRetriesPerTask)

theorem attemptsLeft_pos {task : BacklogTask} (htodo : task.status = .todo) (retryCount : Nat) :
    0 < attemptsLeft maxRetriesPerTask retryCount task := by
  rw [attemptsLeft, if_pos htodo]
  omega

theorem attemptsLeft_of_not_todo {task : BacklogTask} (h : task.status ≠ .todo) (retryCount : Nat) :
    attemptsLeft maxRetriesPerTask retryCount task = 0 := if_neg h

/-- One more failure leaves no more attempts, and fewer below the limit. -/
theorem attemptsLeft_succ {task : BacklogTask} (htodo : task.status = .todo) (retryCount : Nat) :
    attemptsLeft maxRetriesPerTask (retryCount + 1) task ≤
        attemptsLeft maxRetriesPerTask retryCount task ∧
      (retryCount + 1 < maxRetriesPerTask →
        attemptsLeft maxRetriesPerTask (retryCount + 1) task <
          attemptsLeft maxRetriesPerTask retryCount task) := by
  simp only [attemptsLeft, if_pos htodo]
  omega

theorem retryCount_countFailure (state : ProjectState) (failure : FailureRecord) (id : String) :
    (state.countFailure failure).retryCount id =
      if id = failure.taskId then state.retryCount failure.taskId + 1 else state.retryCount id :=
  retryCount_set state (state.countFailure failure).execution failure.taskId id _ rfl

variable (family)

/-- **A counted failure** leaves no more work, and less below the limit. -/
theorem workLeft_countFailure {handle : TaskHandle} (hown : state.OwnTodo handle)
    {failure : FailureRecord} (htask : failure.taskId = handle.task.id) :
    (state.countFailure failure).workLeft maxRetriesPerTask family ≤
        state.workLeft maxRetriesPerTask family ∧
      (family handle.task.id = true →
        state.retryCount handle.task.id + 1 < maxRetriesPerTask →
          (state.countFailure failure).workLeft maxRetriesPerTask family <
            state.workLeft maxRetriesPerTask family) := by
  have hretry := retryCount_countFailure state failure
  have hupdate := Dict.weight_update
    (fun key task =>
      if family key then attemptsLeft maxRetriesPerTask (state.retryCount key) task else 0)
    (fun key task =>
      if family key then
        attemptsLeft maxRetriesPerTask ((state.countFailure failure).retryCount key) task
      else 0) hown.stored fun key task hne _ => by
        have hother : (state.countFailure failure).retryCount key = state.retryCount key := by
          rw [hretry, if_neg (by rwa [htask])]
        rw [hother]
  have hcount : (state.countFailure failure).retryCount handle.task.id =
      state.retryCount handle.task.id + 1 := by
    rw [hretry, if_pos htask.symm, htask]
  simp only [hcount] at hupdate
  obtain ⟨hle, hlt⟩ := attemptsLeft_succ maxRetriesPerTask hown.todo
    (state.retryCount handle.task.id)
  unfold workLeft
  change (state.backlog.tasks.weight _ ≤ _) ∧ (_ → _ → state.backlog.tasks.weight _ < _)
  constructor
  · split_ifs at hupdate <;> omega
  · intro hfamily hbelow
    have hless := hlt hbelow
    rw [if_pos hfamily, if_pos hfamily] at hupdate
    omega

/-- A task whose status leaves the backlog's open ones takes its work along. -/
theorem workLeft_setTaskStatus {handle : TaskHandle} (hown : state.OwnTodo handle)
    {status : BacklogTaskStatus} (hstatus : status ≠ .todo) :
    (state.setTaskStatus handle status).workLeft maxRetriesPerTask family +
        (if family handle.task.id then
          attemptsLeft maxRetriesPerTask (state.retryCount handle.task.id) handle.task else 0) =
      state.workLeft maxRetriesPerTask family := by
  have hmodify := Dict.weight_modify hown.stored (fun task => { task with status := status })
    fun key task =>
      if family key then attemptsLeft maxRetriesPerTask (state.retryCount key) task else 0
  have hzero : attemptsLeft maxRetriesPerTask (state.retryCount handle.task.id)
      { handle.task with status := status } = 0 := attemptsLeft_of_not_todo _ hstatus _
  simp only [hzero, ite_self, Nat.add_zero] at hmodify
  have hkey := hown.own
  obtain ⟨task, key⟩ := handle
  obtain rfl : key = task.id := hkey
  exact hmodify

/-- The work left does not depend on what is done beside the tasks and the retry counts. -/
theorem workLeft_congr (hbacklog : state'.backlog = state.backlog)
    (hretries : state'.execution.retryCounts = state.execution.retryCounts) :
    state'.workLeft maxRetriesPerTask family = state.workLeft maxRetriesPerTask family := by
  unfold workLeft retryCount
  rw [hbacklog, hretries]

/-- A completed task takes its work along. -/
theorem workLeft_completeTask {handle : TaskHandle} (hown : state.OwnTodo handle) :
    (state.completeTask handle).workLeft maxRetriesPerTask family +
        (if family handle.task.id then
          attemptsLeft maxRetriesPerTask (state.retryCount handle.task.id) handle.task else 0) =
      state.workLeft maxRetriesPerTask family := by
  rw [← workLeft_setTaskStatus maxRetriesPerTask family hown (by decide : BacklogTaskStatus.done ≠ .todo)]
  exact congrArg (· + _) (workLeft_congr maxRetriesPerTask family rfl rfl)

/-- So does a blocked one. -/
theorem workLeft_blockTask {handle : TaskHandle} (hown : state.OwnTodo handle) :
    (state.blockTask handle).workLeft maxRetriesPerTask family +
        (if family handle.task.id then
          attemptsLeft maxRetriesPerTask (state.retryCount handle.task.id) handle.task else 0) =
      state.workLeft maxRetriesPerTask family := by
  rw [← workLeft_setTaskStatus maxRetriesPerTask family hown
    (by decide : BacklogTaskStatus.blocked ≠ .todo)]
  exact congrArg (· + _) (workLeft_congr maxRetriesPerTask family rfl rfl)

/-- A split child has at most the attempts below the limit left. -/
theorem attemptsLeft_child (task : BacklogTask) (h : truthy task.splitFromTaskId = true)
    (retryCount : Nat) :
    attemptsLeft maxRetriesPerTask retryCount task ≤ max 1 maxRetriesPerTask := by
  unfold attemptsLeft
  rw [if_pos h]
  split
  · omega
  · exact Nat.zero_le _

/-- A task that can be split has those of its children left, and one more at least. -/
theorem attemptsLeft_whole {task : BacklogTask} (htodo : task.status = .todo)
    (hwhole : task.splitFromTaskId = none) (retryCount : Nat) :
    2 * max 1 maxRetriesPerTask < attemptsLeft maxRetriesPerTask retryCount task := by
  unfold attemptsLeft
  rw [if_pos htodo, hwhole, if_neg (by decide)]
  omega

theorem attemptsLeft_le (retryCount : Nat) (task : BacklogTask) :
    attemptsLeft maxRetriesPerTask retryCount task ≤ 3 * max 1 maxRetriesPerTask := by
  unfold attemptsLeft
  split_ifs <;> omega

/-- **A split** leaves less work: the children have less left than the task had. -/
theorem workLeft_splitTask {handle : TaskHandle} (hown : state.OwnTodo handle)
    (hid : handle.task.id ≠ "") (hwhole : handle.task.splitFromTaskId = none)
    (hfree₁ : firstChildId handle.task.id ∉ state.backlog.tasks.keys)
    (hfree₂ : secondChildId handle.task.id ∉ state.backlog.tasks.keys)
    (hfirst : family (firstChildId handle.task.id) = family handle.task.id)
    (hsecond : family (secondChildId handle.task.id) = family handle.task.id) (reason : String) :
    (state.splitTask handle (splitTaskForRetry handle.task reason)).workLeft maxRetriesPerTask
        family + (if family handle.task.id then 1 else 0) ≤
      state.workLeft maxRetriesPerTask family := by
  have hsuperseded := workLeft_setTaskStatus maxRetriesPerTask family hown
    (by decide : BacklogTaskStatus.superseded ≠ .todo)
  have hretries : (state.splitTask handle (splitTaskForRetry handle.task reason)).execution.retryCounts =
      state.execution.retryCounts := by rw [splitTask_eq]
  have hkey := hown.own
  have htodo := hown.todo
  obtain ⟨task, key⟩ := handle
  obtain rfl : key = task.id := hkey
  have hfirstFree : firstChildId task.id ∉
      (state.backlog.tasks.modify task.id fun t => { t with status := .superseded }).keys := by
    rw [Dict.keys_modify]
    exact hfree₁
  have hsecondFree : secondChildId task.id ∉
      ((state.backlog.tasks.modify task.id fun t => { t with status := .superseded }).set
        (firstChildId task.id) (splitTaskForRetry task reason).firstChild).keys := by
    rw [Dict.mem_keys_set, Dict.keys_modify]
    rintro (heq | hmem)
    · exact firstChildId_ne_secondChildId _ _ heq.symm
    · exact hfree₂ hmem
  -- The tasks are the old ones, one of them superseded, and the two children.
  have hsplit : (state.splitTask ⟨task, task.id⟩ (splitTaskForRetry task reason)).workLeft
        maxRetriesPerTask family =
      (state.setTaskStatus ⟨task, task.id⟩ .superseded).workLeft maxRetriesPerTask family +
        (if family task.id then attemptsLeft maxRetriesPerTask
          (state.retryCount (firstChildId task.id)) (splitTaskForRetry task reason).firstChild
          else 0) +
        (if family task.id then attemptsLeft maxRetriesPerTask
          (state.retryCount (secondChildId task.id)) (splitTaskForRetry task reason).secondChild
          else 0) := by
    have hrewrite : ∀ (key : String) (candidate : BacklogTask),
        attemptsLeft maxRetriesPerTask (state.retryCount key) (rewriteCandidate task.id
            (secondChildId task.id) [firstChildId task.id, secondChildId task.id] candidate) =
          attemptsLeft maxRetriesPerTask (state.retryCount key) candidate := by
      intro key candidate
      obtain ⟨dependsOn, heq⟩ := rewriteCandidate_eq task.id (secondChildId task.id)
        [firstChildId task.id, secondChildId task.id] candidate
      rw [heq]
      rfl
    have hcount : ∀ id, (state.splitTask ⟨task, task.id⟩
        (splitTaskForRetry task reason)).retryCount id = state.retryCount id := fun id => by
      unfold retryCount
      rw [hretries]
    unfold workLeft
    rw [tasks_splitTask, Dict.weight_mapVals]
    simp only [hcount, hrewrite]
    rw [Dict.weight_set_of_notMem hsecondFree, Dict.weight_set_of_notMem hfirstFree]
    simp only at hfirst hsecond
    rw [hfirst, hsecond]
    rfl
  have hparent : truthy (some task.id) = true := by simpa [truthy] using hid
  have hleft₁ := attemptsLeft_child maxRetriesPerTask
    (splitTaskForRetry task reason).firstChild hparent
    (state.retryCount (firstChildId task.id))
  have hleft₂ := attemptsLeft_child maxRetriesPerTask
    (splitTaskForRetry task reason).secondChild hparent
    (state.retryCount (secondChildId task.id))
  have hleft := attemptsLeft_whole maxRetriesPerTask htodo hwhole
    (state.retryCount task.id)
  rw [hsplit, ← hsuperseded]
  dsimp only at hleft ⊢
  split_ifs <;> omega

/-- All tasks together have at most as much work left as each can have. -/
theorem workLeft_le (state : ProjectState) :
    state.workLeft maxRetriesPerTask family ≤
      state.backlog.tasks.keys.length * (3 * max 1 maxRetriesPerTask) := by
  refine Dict.weight_le_mul fun key task _ => ?_
  split
  · exact attemptsLeft_le maxRetriesPerTask _ task
  · exact Nat.zero_le _

end ProjectState

namespace Attempt

open ProjectState

variable {limits : RunLimits} {family : String → Bool} {start current : ProjectState}
  {attempt : Attempt}

/-- **Attempts use up work**: none leaves more of it, and one that settles a task of the family leaves
less. -/
theorem Justified.workLeft_lt (hjustified : attempt.Justified limits start) (hvalid : start.Valid)
    (hconsistent : start.Consistent) (hfamily : FamilyClosed family)
    (h : (attempt.apply start).SameBook current) :
    current.workLeft limits.maxRetriesPerTask family ≤
        start.workLeft limits.maxRetriesPerTask family ∧
      ∀ taskId, attempt.Settles limits.maxRetriesPerTask start → attempt.taskId? = some taskId →
        family taskId = true →
          current.workLeft limits.maxRetriesPerTask family <
            start.workLeft limits.maxRetriesPerTask family := by
  rw [h.workLeft]
  cases hjustified with
  | untouched => exact ⟨Nat.le_refl _, fun _ hsettles => hsettles.elim⟩
  | @failed handle failure hexecutable hsteps hof =>
    obtain ⟨hle, hlt⟩ := workLeft_countFailure limits.maxRetriesPerTask family
      (hconsistent.ownTodo hexecutable) hof.task
    refine ⟨hle, ?_⟩
    rintro _ hsettles ⟨⟩ hin
    exact hlt hin (verdict_retry_iff.mp hsettles)
  | @completed handle hexecutable hsteps =>
    have hown := hconsistent.ownTodo hexecutable
    have hdone := workLeft_completeTask limits.maxRetriesPerTask family hown
    have hleft := attemptsLeft_pos limits.maxRetriesPerTask hown.todo
      (start.retryCount handle.task.id)
    rw [apply]
    refine ⟨by omega, ?_⟩
    rintro _ - ⟨⟩ hin
    rw [if_pos hin] at hdone
    omega
  | @blocked handle failure hexecutable hsteps hof hcalled =>
    have hown := (hconsistent.ownTodo hexecutable).countFailure failure
    obtain ⟨hle, -⟩ := workLeft_countFailure limits.maxRetriesPerTask family
      (hconsistent.ownTodo hexecutable) hof.task
    have hblock := workLeft_blockTask limits.maxRetriesPerTask family hown
    have hleft := attemptsLeft_pos limits.maxRetriesPerTask hown.todo
      ((start.countFailure failure).retryCount handle.task.id)
    rw [apply]
    refine ⟨by omega, ?_⟩
    rintro _ - ⟨⟩ hin
    rw [if_pos hin] at hblock
    omega
  | @split handle failure reason hexecutable hsteps hof hcalled =>
    have hown := hconsistent.ownTodo hexecutable
    have hwhole := whole_of_split hvalid hexecutable hcalled
    obtain ⟨hle, -⟩ := workLeft_countFailure limits.maxRetriesPerTask family
      hown hof.task
    obtain ⟨hfree₁, hfree₂⟩ := hconsistent.childIds_free hown.stored hown.todo
    have hid : handle.task.id ≠ "" :=
      (hvalid.schema.tasks handle.task (Dict.mem_values_of_get? hown.stored)).1
    -- A task that is whole does not look like a split child, so its children are in its family.
    have hsuffix : endsInSplitSuffix handle.task.id = false := by
      by_contra hends
      obtain ⟨hsplit, -⟩ := hconsistent.suffix _ _ hown.stored (by simpa using hends)
      exact hsplit hwhole
    obtain ⟨hfirst, hsecond⟩ := hfamily _ hsuffix
    have hless := workLeft_splitTask limits.maxRetriesPerTask family (hown.countFailure failure) hid hwhole hfree₁ hfree₂
      hfirst hsecond reason
    rw [apply]
    refine ⟨by omega, ?_⟩
    rintro _ - ⟨⟩ hin
    rw [if_pos hin] at hless
    omega

end Attempt

/-! ### The family of one task -/

namespace ProjectState

/-- A task and the children it may be split into. -/
def familyOf (taskId : String) : List String := [taskId, firstChildId taskId, secondChildId taskId]

theorem familyClosed_familyOf {taskId : String} (h : endsInSplitSuffix taskId = false) :
    FamilyClosed (familyOf taskId).contains := by
  intro id hid
  have hne₁ : firstChildId id ≠ taskId := by
    rintro rfl
    simp at h
  have hne₂ : secondChildId id ≠ taskId := by
    rintro rfl
    simp at h
  have hself : id ∈ familyOf taskId ↔ id = taskId := by
    refine ⟨fun hmem => ?_, fun heq => heq ▸ List.mem_cons_self⟩
    simp only [familyOf, List.mem_cons, List.not_mem_nil, or_false] at hmem
    rcases hmem with rfl | rfl | rfl
    · rfl
    · simp at hid
    · simp at hid
  refine ⟨?_, ?_⟩
  · rw [Bool.eq_iff_iff, List.contains_iff_mem, List.contains_iff_mem, hself]
    simp only [familyOf, List.mem_cons, List.not_mem_nil, or_false, hne₁, false_or,
      firstChildId_ne_secondChildId, or_false]
    exact ⟨firstChildId_injective, congrArg _⟩
  · rw [Bool.eq_iff_iff, List.contains_iff_mem, List.contains_iff_mem, hself]
    simp only [familyOf, List.mem_cons, List.not_mem_nil, or_false, hne₂, false_or,
      Ne.symm (firstChildId_ne_secondChildId _ _)]
    exact ⟨secondChildId_injective, congrArg _⟩

/-- **A family brings at most three times as many verdicts as a task has attempts.** -/
theorem workLeft_familyOf {maxRetriesPerTask : Nat} {state : ProjectState} {taskId : String}
    (hvalid : state.Valid) (hconsistent : state.Consistent) :
    state.workLeft maxRetriesPerTask (familyOf taskId).contains ≤
      3 * max 1 maxRetriesPerTask := by
  let part : String → BacklogTask → Nat := fun key task =>
    if (familyOf taskId).contains key then
      attemptsLeft maxRetriesPerTask (state.retryCount key) task
    else 0
  let sum : String → Nat := fun key => ((state.backlog.tasks.get? key).map (part key)).getD 0
  have hsum : state.workLeft maxRetriesPerTask (familyOf taskId).contains ≤
      sum taskId + (sum (firstChildId taskId) + (sum (secondChildId taskId) + 0)) :=
    Dict.weight_le_of_keys (familyOf taskId) (f := part)
      fun key task _ hnot => if_neg (by simpa using hnot)
  have hpart : ∀ key task, part key task ≤
      attemptsLeft maxRetriesPerTask (state.retryCount key) task := by
    intro key task
    show (if _ then _ else 0) ≤ _
    split
    · exact Nat.le_refl _
    · exact Nat.zero_le _
  have hchild : ∀ key, endsInSplitSuffix key = true → sum key ≤ max 1 maxRetriesPerTask := by
    intro key hends
    show ((state.backlog.tasks.get? key).map (part key)).getD 0 ≤ _
    cases hget : state.backlog.tasks.get? key with
    | none => exact Nat.zero_le _
    | some task =>
      obtain ⟨hsplit, -⟩ := hconsistent.suffix key task hget hends
      obtain ⟨parent, hparent⟩ := Option.ne_none_iff_exists'.mp hsplit
      have hne := (hvalid.schema.tasks task (Dict.mem_values_of_get? hget)).2.2.1 parent hparent
      refine (hpart key task).trans (attemptsLeft_child _ _ ?_ _)
      rw [hparent]
      simpa [truthy] using hne
  have hfirst := hchild _ (endsInSplitSuffix_firstChildId taskId)
  have hsecond := hchild _ (endsInSplitSuffix_secondChildId taskId)
  have hnone : ∀ key, key ∉ state.backlog.tasks.keys → sum key = 0 := by
    intro key hnot
    show ((state.backlog.tasks.get? key).map (part key)).getD 0 = 0
    rw [Dict.get?_eq_none_iff.mpr hnot]
    rfl
  cases hget : state.backlog.tasks.get? taskId with
  | none =>
    have hzero := hnone taskId (Dict.get?_eq_none_iff.mp hget)
    omega
  | some task =>
    have hown : sum taskId = part taskId task := by
      show ((state.backlog.tasks.get? taskId).map (part taskId)).getD 0 = _
      rw [hget]
      rfl
    have hle := hpart taskId task
    by_cases htodo : task.status = .todo
    · -- The children of a task that is to do are not in use.
      obtain ⟨hfree₁, hfree₂⟩ := hconsistent.childIds_free hget htodo
      have hzero₁ := hnone _ hfree₁
      have hzero₂ := hnone _ hfree₂
      have hleft := attemptsLeft_le maxRetriesPerTask
        (state.retryCount taskId) task
      omega
    · rw [attemptsLeft_of_not_todo _ htodo] at hle
      omega

end ProjectState

end AiOrchestrator
