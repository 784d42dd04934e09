import AiOrchestrator.Workflow.Bookkeeping

/-!
# The joint invariant of the bookkeeping

Five collections of a project state speak about the same tasks: the statuses in the
backlog, the completed and the blocked ids, the retry counts and the failure
records. `Consistent` says how they fit together, and the results of this file say
that every outcome of a run and every operator action keeps it.

The clauses about children (`superseded_children`, `parent`, `child_whole`, `suffix`)
carry each other: that the two ids of a new pair of children are free
(`Consistent.childIds_free`) needs to know of every id with a split suffix which
split it came from, and that a task with children is never split again.
-/

namespace AiOrchestrator

namespace ProjectState

/-- The number of tasks in the backlog that were split from a task. -/
def childCount (state : ProjectState) (taskId : String) : Nat :=
  state.backlog.tasks.values.countP fun task => task.splitFromTaskId = some taskId

/-- The number of failure records stored for a task. -/
def failureCount (state : ProjectState) (taskId : String) : Nat :=
  state.failures.countP fun failure => failure.taskId = taskId

/-- The task stored under an id has a status. -/
def HasStatus (state : ProjectState) (id : String) (status : BacklogTaskStatus) : Prop :=
  ∃ task, state.backlog.tasks.get? id = some task ∧ task.status = status

/-- **Consistent bookkeeping**. -/
structure Consistent (state : ProjectState) : Prop where
  /-- Every task is stored under its own id. -/
  keys : ∀ key task, state.backlog.tasks.get? key = some task → task.id = key
  /-- Every feature is stored under its own id. -/
  featureKeys : ∀ key feature, state.backlog.features.get? key = some feature → feature.id = key
  /-- Done tasks are the completed ones. -/
  done_iff : ∀ id, id ∈ state.execution.completedTaskIds ↔ state.HasStatus id .done
  /-- Blocked tasks are the ones listed as blocked. -/
  blocked_iff : ∀ id, id ∈ state.execution.blockedTaskIds ↔ state.HasStatus id .blocked
  completed_nodup : state.execution.completedTaskIds.Nodup
  blocked_nodup : state.execution.blockedTaskIds.Nodup
  /-- Retry counts count failure records. -/
  retry_eq : ∀ taskId, state.retryCount taskId = state.failureCount taskId
  /-- The lookup of a task's retry count finds that number. -/
  retry_counted : ∀ key ∈ state.backlog.tasks.keys, state.RetryCounted key
  /-- A task split from another names a task that the lookup finds. -/
  split_stored : ∀ key task, state.backlog.tasks.get? key = some task →
    ∀ parent, task.splitFromTaskId = some parent → state.backlog.tasks.Finds parent
  /-- A superseded task has two children. -/
  superseded_children : ∀ key task, state.backlog.tasks.get? key = some task →
    task.status = .superseded → state.childCount key = 2
  /-- A task with children is superseded, or has been marked done since. -/
  parent : ∀ key task, state.backlog.tasks.get? key = some task → state.childCount key ≠ 0 →
    task.status = .superseded ∨ task.status = .done
  /-- A child is not split itself. -/
  child_whole : ∀ key task, state.backlog.tasks.get? key = some task →
    task.splitFromTaskId ≠ none → task.status ≠ .superseded ∧ state.childCount key = 0
  /-- An id with a split suffix belongs to a child made by a split. -/
  suffix : ∀ key task, state.backlog.tasks.get? key = some task → endsInSplitSuffix key = true →
    task.splitFromTaskId ≠ none ∧
      ∃ parent, state.childCount parent ≠ 0 ∧
        (key = firstChildId parent ∨ key = secondChildId parent)

variable {state : ProjectState}

theorem hasStatus_iff {id : String} {task : BacklogTask}
    (hget : state.backlog.tasks.get? id = some task) {status : BacklogTaskStatus} :
    state.HasStatus id status ↔ task.status = status := by
  constructor
  · rintro ⟨t, ht, hs⟩
    rw [hget] at ht
    cases ht
    exact hs
  · intro hs
    exact ⟨task, hget, hs⟩

/-- An id of the completed or the blocked list is that of a stored task. -/
theorem HasStatus.mem_keys {id : String} {status : BacklogTaskStatus}
    (h : state.HasStatus id status) : id ∈ state.backlog.tasks.keys := by
  obtain ⟨_, hget, _⟩ := h
  exact Dict.mem_keys_of_get? hget

/-- An id that is not in use has no children, where it looks like a split child's. -/
theorem Consistent.childCount_eq_zero (h : state.Consistent) {id : String}
    (hid : id ∉ state.backlog.tasks.keys) (hsuffix : endsInSplitSuffix id = true) :
    state.childCount id = 0 := by
  refine List.countP_eq_zero.mpr fun task hmem => ?_
  obtain ⟨key, hget⟩ := Dict.mem_values_iff.mp hmem
  intro hparent
  rcases h.split_stored key task hget id (of_decide_eq_true hparent) with hkey | hinherited
  · exact hid hkey
  · exact notMem_inheritedNames hsuffix hinherited

/-- The ids of the children of a task that can be split are not in use. -/
theorem Consistent.childIds_free (h : state.Consistent) {key : String} {task : BacklogTask}
    (hget : state.backlog.tasks.get? key = some task) (htodo : task.status = .todo) :
    firstChildId key ∉ state.backlog.tasks.keys ∧ secondChildId key ∉ state.backlog.tasks.keys := by
  have hnone : state.childCount key = 0 := by
    by_contra hne
    rcases h.parent key task hget hne with hstatus | hstatus <;> rw [htodo] at hstatus <;>
      cases hstatus
  constructor
  · intro hmem
    obtain ⟨child, hchild⟩ := Dict.exists_get?_iff.mpr hmem
    obtain ⟨-, parent, hparent, heq | heq⟩ := h.suffix _ _ hchild (by simp)
    · rw [← firstChildId_injective heq] at hparent
      exact hparent hnone
    · exact firstChildId_ne_secondChildId _ _ heq
  · intro hmem
    obtain ⟨child, hchild⟩ := Dict.exists_get?_iff.mpr hmem
    obtain ⟨-, parent, hparent, heq | heq⟩ := h.suffix _ _ hchild (by simp)
    · exact firstChildId_ne_secondChildId _ _ heq.symm
    · rw [← secondChildId_injective heq] at hparent
      exact hparent hnone

/-! ### What the updates change -/

section SetTaskStatus

variable (state) (task : BacklogTask) (key : String) (status : BacklogTaskStatus)

theorem get?_setTaskStatus (j : String) :
    (state.setTaskStatus ⟨task, key⟩ status).backlog.tasks.get? j =
      if j = key then (state.backlog.tasks.get? j).map fun t => { t with status := status }
      else state.backlog.tasks.get? j :=
  Dict.get?_modify _ _ _ _

@[simp] theorem keys_setTaskStatus :
    (state.setTaskStatus ⟨task, key⟩ status).backlog.tasks.keys = state.backlog.tasks.keys :=
  Dict.keys_modify _ _ _

@[simp] theorem childCount_setTaskStatus (j : String) :
    (state.setTaskStatus ⟨task, key⟩ status).childCount j = state.childCount j :=
  Dict.countP_values_modify fun _ => rfl

@[simp] theorem execution_setTaskStatus :
    (state.setTaskStatus ⟨task, key⟩ status).execution = state.execution := rfl

@[simp] theorem failures_setTaskStatus :
    (state.setTaskStatus ⟨task, key⟩ status).failures = state.failures := rfl

@[simp] theorem features_setTaskStatus :
    (state.setTaskStatus ⟨task, key⟩ status).backlog.features = state.backlog.features := rfl

end SetTaskStatus

theorem retryCount_set (state : ProjectState) (execution : ExecutionState) (taskId id : String)
    (n : Nat) (h : execution.retryCounts = state.execution.retryCounts.set taskId n) :
    (execution.retryCounts.get? id).getD 0 = if id = taskId then n else state.retryCount id := by
  rw [h, Dict.get?_set]
  split <;> rfl

theorem failureCount_append (failures : List FailureRecord) (failure : FailureRecord)
    (id : String) :
    (failures ++ [failure]).countP (fun f => f.taskId = id) =
      failures.countP (fun f => f.taskId = id) + if id = failure.taskId then 1 else 0 := by
  rw [List.countP_append, List.countP_singleton]
  congr 1
  by_cases hid : failure.taskId = id
  · simp [hid]
  · simp [hid, Ne.symm hid]

/-! ### Statuses and lists -/

/-- **One task changes its status**, and the lists of completed and blocked ids follow. -/
structure Restatused (state state' : ProjectState) (key : String) (task : BacklogTask)
    (status : BacklogTaskStatus) : Prop where
  stored : state.backlog.tasks.get? key = some task
  backlog : state'.backlog = (state.setTaskStatus ⟨task, key⟩ status).backlog
  completed : ∀ j, j ∈ state'.execution.completedTaskIds ↔
    if j = key then status = .done else j ∈ state.execution.completedTaskIds
  blocked : ∀ j, j ∈ state'.execution.blockedTaskIds ↔
    if j = key then status = .blocked else j ∈ state.execution.blockedTaskIds

section Restatused

variable {state' : ProjectState} {key : String} {task : BacklogTask} {status : BacklogTaskStatus}

theorem Restatused.get? (h : state.Restatused state' key task status) (j : String) :
    state'.backlog.tasks.get? j =
      if j = key then some { task with status := status } else state.backlog.tasks.get? j := by
  rw [h.backlog, get?_setTaskStatus]
  split
  · next hj => rw [hj, h.stored, Option.map_some]
  · rfl

/-- Every task is an old one, up to the status of the one changed. -/
theorem Restatused.cases (h : state.Restatused state' key task status) {j : String}
    {t : BacklogTask} (ht : state'.backlog.tasks.get? j = some t) :
    (j = key ∧ t = { task with status := status }) ∨
      (j ≠ key ∧ state.backlog.tasks.get? j = some t) := by
  rw [h.get? j] at ht
  split at ht
  · next hj => exact Or.inl ⟨hj, (Option.some.inj ht).symm⟩
  · next hj => exact Or.inr ⟨hj, ht⟩

theorem Restatused.keys (h : state.Restatused state' key task status) :
    state'.backlog.tasks.keys = state.backlog.tasks.keys := by
  rw [h.backlog, keys_setTaskStatus]

theorem Restatused.childCount (h : state.Restatused state' key task status) (j : String) :
    state'.childCount j = state.childCount j := by
  unfold ProjectState.childCount
  rw [h.backlog]
  exact childCount_setTaskStatus state task key status j

theorem Restatused.hasStatus (h : state.Restatused state' key task status) (j : String)
    (σ : BacklogTaskStatus) :
    state'.HasStatus j σ ↔ if j = key then status = σ else state.HasStatus j σ := by
  unfold HasStatus
  rw [h.get? j]
  split
  · simp
  · rfl

/-- The completed ids remain those of the done tasks. -/
theorem Restatused.done_iff (h : state.Restatused state' key task status)
    (hdone : ∀ id, id ∈ state.execution.completedTaskIds ↔ state.HasStatus id .done) (id : String) :
    id ∈ state'.execution.completedTaskIds ↔ state'.HasStatus id .done := by
  rw [h.completed id, h.hasStatus id, hdone id]

/-- The blocked ids remain those of the blocked tasks. -/
theorem Restatused.blocked_iff (h : state.Restatused state' key task status)
    (hblocked : ∀ id, id ∈ state.execution.blockedTaskIds ↔ state.HasStatus id .blocked)
    (id : String) : id ∈ state'.execution.blockedTaskIds ↔ state'.HasStatus id .blocked := by
  rw [h.blocked id, h.hasStatus id, hblocked id]

end Restatused

/-- A run's task, as an element of the backlog it works on. -/
structure OwnTodo (state : ProjectState) (handle : TaskHandle) : Prop where
  own : handle.key = handle.task.id
  stored : state.backlog.tasks.get? handle.task.id = some handle.task
  todo : handle.task.status = .todo

/-- Completing a task changes its status to done. -/
theorem OwnTodo.restatused_completeTask {handle : TaskHandle} (hown : state.OwnTodo handle)
    (hblocked : handle.task.id ∉ state.execution.blockedTaskIds) :
    state.Restatused (state.completeTask handle) handle.task.id handle.task .done := by
  obtain ⟨task, key⟩ := handle
  obtain rfl : key = task.id := hown.own
  refine ⟨hown.stored, rfl, fun j => ?_, fun j => ?_⟩
  · change j ∈ pushNew state.execution.completedTaskIds task.id ↔ _
    rw [mem_pushNew]
    split
    · next hj => simp [hj]
    · next hj => simp [hj]
  · change j ∈ state.execution.blockedTaskIds ↔ _
    split
    · next hj =>
      subst hj
      exact iff_of_false hblocked (by decide)
    · rfl

/-- Blocking a task changes its status to blocked. -/
theorem OwnTodo.restatused_blockTask {handle : TaskHandle} (hown : state.OwnTodo handle)
    (hcompleted : handle.task.id ∉ state.execution.completedTaskIds) :
    state.Restatused (state.blockTask handle) handle.task.id handle.task .blocked := by
  obtain ⟨task, key⟩ := handle
  obtain rfl : key = task.id := hown.own
  refine ⟨hown.stored, rfl, fun j => ?_, fun j => ?_⟩
  · change j ∈ state.execution.completedTaskIds ↔ _
    split
    · next hj =>
      subst hj
      exact iff_of_false hcompleted (by decide)
    · rfl
  · change j ∈ pushNew state.execution.blockedTaskIds task.id ↔ _
    rw [mem_pushNew]
    split
    · next hj => simp [hj]
    · next hj => simp [hj]

/-- One task changes its status, and the lists follow: consistency is kept when the new
status is neither `superseded` nor, for a task with children, anything but `done`. -/
theorem Consistent.of_restatused (h : state.Consistent) {state' : ProjectState} {key : String}
    {task : BacklogTask} {status : BacklogTaskStatus}
    (hrestatused : state.Restatused state' key task status)
    (hcompletedNodup : state'.execution.completedTaskIds.Nodup)
    (hblockedNodup : state'.execution.blockedTaskIds.Nodup)
    (hretry : ∀ id, state'.retryCount id = state'.failureCount id)
    (hcounts : state'.execution.retryCounts = state.execution.retryCounts)
    (hstatus : status ≠ .superseded)
    (hparent : state.childCount key ≠ 0 → status = .done) : state'.Consistent := by
  have hget := hrestatused.stored
  refine
    { keys := ?_, featureKeys := ?_, done_iff := hrestatused.done_iff h.done_iff
      blocked_iff := hrestatused.blocked_iff h.blocked_iff
      completed_nodup := hcompletedNodup, blocked_nodup := hblockedNodup, retry_eq := hretry
      retry_counted := ?_, split_stored := ?_, superseded_children := ?_, parent := ?_
      child_whole := ?_, suffix := ?_ }
  · intro j t ht
    rcases hrestatused.cases ht with ⟨rfl, rfl⟩ | ⟨-, ht⟩
    · exact h.keys _ task hget
    · exact h.keys j t ht
  · intro j feature hj
    rw [hrestatused.backlog] at hj
    exact h.featureKeys j feature hj
  · intro j hj
    rw [hrestatused.keys] at hj
    unfold RetryCounted
    rw [hcounts]
    exact h.retry_counted j hj
  -- Keys and parent links are as before, so each clause holds of the restatused task and the rest.
  · intro j t ht p hp
    have hmono : ∀ {q}, state.backlog.tasks.Finds q → state'.backlog.tasks.Finds q := fun hq =>
      hq.mono fun i hi => hrestatused.keys ▸ hi
    rcases hrestatused.cases ht with ⟨rfl, rfl⟩ | ⟨-, ht⟩
    · exact hmono (h.split_stored _ task hget p hp)
    · exact hmono (h.split_stored j t ht p hp)
  · intro j t ht hsup
    rw [hrestatused.childCount j]
    rcases hrestatused.cases ht with ⟨rfl, rfl⟩ | ⟨-, ht⟩
    · exact absurd hsup hstatus
    · exact h.superseded_children j t ht hsup
  -- A task with children may only become done, which is what the premise on the parent says.
  · intro j t ht hne
    rw [hrestatused.childCount j] at hne
    rcases hrestatused.cases ht with ⟨rfl, rfl⟩ | ⟨-, ht⟩
    · exact Or.inr (hparent hne)
    · exact h.parent j t ht hne
  · intro j t ht hsplit
    rw [hrestatused.childCount j]
    rcases hrestatused.cases ht with ⟨rfl, rfl⟩ | ⟨-, ht⟩
    · exact ⟨hstatus, (h.child_whole _ task hget hsplit).2⟩
    · exact h.child_whole j t ht hsplit
  · intro j t ht hsuffix
    obtain ⟨t₀, ht₀, hsplit⟩ : ∃ t₀, state.backlog.tasks.get? j = some t₀ ∧
        t₀.splitFromTaskId = t.splitFromTaskId := by
      rcases hrestatused.cases ht with ⟨rfl, rfl⟩ | ⟨-, ht⟩
      · exact ⟨task, hget, rfl⟩
      · exact ⟨t, ht, rfl⟩
    obtain ⟨hne, parent, hparent, hid⟩ := h.suffix j t₀ ht₀ hsuffix
    refine ⟨hsplit ▸ hne, parent, ?_, hid⟩
    rw [hrestatused.childCount parent]
    exact hparent

/-- Nothing but other fields change: consistency is kept. -/
theorem Consistent.of_eq (h : state.Consistent) {state' : ProjectState}
    (hbacklog : state'.backlog = state.backlog)
    (hcompleted : state'.execution.completedTaskIds = state.execution.completedTaskIds)
    (hblocked : state'.execution.blockedTaskIds = state.execution.blockedTaskIds)
    (hretry : ∀ id, state'.retryCount id = state'.failureCount id)
    (hcounts : ∀ id ∈ state.execution.retryCounts.keys, id ∈ state'.execution.retryCounts.keys) :
    state'.Consistent := by
  have hchild : ∀ j, state'.childCount j = state.childCount j := by
    intro j
    unfold childCount
    rw [hbacklog]
  refine
    { keys := ?_, featureKeys := ?_, done_iff := ?_, blocked_iff := ?_, completed_nodup := ?_
      blocked_nodup := ?_, retry_eq := hretry, retry_counted := ?_, split_stored := ?_
      superseded_children := ?_, parent := ?_, child_whole := ?_, suffix := ?_ }
  · rw [hbacklog]
    exact h.keys
  · rw [hbacklog]
    exact h.featureKeys
  · unfold HasStatus
    rw [hbacklog, hcompleted]
    exact h.done_iff
  · unfold HasStatus
    rw [hbacklog, hblocked]
    exact h.blocked_iff
  · rw [hcompleted]
    exact h.completed_nodup
  · rw [hblocked]
    exact h.blocked_nodup
  · intro j hj hinherited
    rw [hbacklog] at hj
    exact hcounts j (h.retry_counted j hj hinherited)
  · rw [hbacklog]
    exact h.split_stored
  · intro j t ht hsup
    rw [hbacklog] at ht
    rw [hchild j]
    exact h.superseded_children j t ht hsup
  · intro j t ht hne
    rw [hbacklog] at ht
    rw [hchild j] at hne
    exact h.parent j t ht hne
  · intro j t ht hsplit
    rw [hbacklog] at ht
    rw [hchild j]
    exact h.child_whole j t ht hsplit
  · intro j t ht hsuffix
    rw [hbacklog] at ht
    obtain ⟨hne, parent, hparent, hid⟩ := h.suffix j t ht hsuffix
    refine ⟨hne, parent, ?_, hid⟩
    rw [hchild parent]
    exact hparent

/-! ### The outcomes keep consistency -/

/-- A task that is todo and own is in neither list and has no children. -/
theorem Consistent.ownTodo_facts (h : state.Consistent) {handle : TaskHandle}
    (hown : state.OwnTodo handle) :
    handle.task.id ∉ state.execution.completedTaskIds ∧
      handle.task.id ∉ state.execution.blockedTaskIds ∧ state.childCount handle.task.id = 0 := by
  refine ⟨?_, ?_, ?_⟩
  · intro hmem
    have := (hasStatus_iff hown.stored).mp ((h.done_iff _).mp hmem)
    rw [hown.todo] at this
    cases this
  · intro hmem
    have := (hasStatus_iff hown.stored).mp ((h.blocked_iff _).mp hmem)
    rw [hown.todo] at this
    cases this
  · by_contra hne
    rcases h.parent _ _ hown.stored hne with hstatus | hstatus <;> rw [hown.todo] at hstatus <;>
      cases hstatus

/-- Completing a task keeps consistency. -/
theorem Consistent.completeTask (h : state.Consistent) {handle : TaskHandle}
    (hown : state.OwnTodo handle) : (state.completeTask handle).Consistent := by
  obtain ⟨-, hnotBlocked, -⟩ := h.ownTodo_facts hown
  exact h.of_restatused (hown.restatused_completeTask hnotBlocked)
    (nodup_pushNew h.completed_nodup _) h.blocked_nodup h.retry_eq rfl (by decide) fun _ => rfl

/-- Blocking a task keeps consistency. -/
theorem Consistent.blockTask (h : state.Consistent) {handle : TaskHandle}
    (hown : state.OwnTodo handle) : (state.blockTask handle).Consistent := by
  obtain ⟨hnotDone, -, hnoChild⟩ := h.ownTodo_facts hown
  exact h.of_restatused (hown.restatused_blockTask hnotDone) h.completed_nodup
    (nodup_pushNew h.blocked_nodup _) h.retry_eq rfl (by decide) fun hne => absurd hnoChild hne

/-- Counting a failure keeps retry counts and failure records together. -/
theorem Consistent.retry_append (h : state.Consistent) (failure : FailureRecord)
    {state' : ProjectState} (hfailures : state'.failures = state.failures ++ [failure])
    (hretries : state'.execution.retryCounts =
      state.execution.retryCounts.set failure.taskId (state.retryCount failure.taskId + 1)) :
    ∀ id, state'.retryCount id = state'.failureCount id := by
  intro id
  unfold failureCount retryCount
  rw [hfailures, failureCount_append, retryCount_set state state'.execution _ id _ hretries]
  split
  · next hid =>
    subst hid
    rw [h.retry_eq]
    rfl
  · exact h.retry_eq id

/-- Recording a failure keeps consistency. -/
theorem Consistent.countFailure (h : state.Consistent) (failure : FailureRecord) :
    (state.countFailure failure).Consistent :=
  h.of_eq rfl rfl rfl (h.retry_append failure rfl rfl) fun _ hid =>
    Dict.mem_keys_set.mpr (Or.inr hid)

/-! ### Splits -/

section RewriteCandidate

variable (supersededTaskId completionTaskId : String) (childTaskIds : List String)
  (candidate : BacklogTask)

/-- The rewriting changes the dependencies alone. -/
theorem rewriteCandidate_eq : ∃ dependsOn,
    rewriteCandidate supersededTaskId completionTaskId childTaskIds candidate =
      { candidate with dependsOn := dependsOn } := by
  unfold rewriteCandidate
  split
  · exact ⟨candidate.dependsOn, rfl⟩
  · split
    · exact ⟨_, rfl⟩
    · exact ⟨candidate.dependsOn, rfl⟩

/-- A child is left alone by the rewriting. -/
theorem rewriteCandidate_of_child (h : candidate.id ∈ childTaskIds) :
    rewriteCandidate supersededTaskId completionTaskId childTaskIds candidate = candidate :=
  if_pos (Or.inr h)

/-- What a rewritten task depends on: its old dependencies, with the completion task in
place of the superseded one. -/
theorem mem_dependsOn_rewriteCandidate {dependency : String}
    (h : dependency ∈
      (rewriteCandidate supersededTaskId completionTaskId childTaskIds candidate).dependsOn) :
    dependency ∈ candidate.dependsOn ∨
      (dependency = completionTaskId ∧ supersededTaskId ∈ candidate.dependsOn) := by
  unfold rewriteCandidate at h
  split at h
  · exact Or.inl h
  · split at h
    · next hmem =>
      rw [List.mem_eraseDups, List.mem_map] at h
      obtain ⟨d, hd, rfl⟩ := h
      split
      · exact Or.inr ⟨rfl, hmem⟩
      · exact Or.inl hd
    · exact Or.inl h

/-- A task that is rewritten no longer depends on the superseded task. -/
theorem supersededTaskId_notMem_rewriteCandidate (hne : completionTaskId ≠ supersededTaskId)
    (hid : candidate.id ≠ supersededTaskId) (hchild : candidate.id ∉ childTaskIds) :
    supersededTaskId ∉
      (rewriteCandidate supersededTaskId completionTaskId childTaskIds candidate).dependsOn := by
  unfold rewriteCandidate
  rw [if_neg (by simp [hid, hchild])]
  split
  · intro h
    rw [List.mem_eraseDups, List.mem_map] at h
    obtain ⟨d, -, hd⟩ := h
    split at hd
    · exact hne hd
    · next hd' => exact hd' hd
  · next h => exact h

end RewriteCandidate

section SplitTask

variable (state) (task : BacklogTask) (reason : String)

/-- What a split of `task` makes of a task stored under `key`: the parent is superseded,
and the dependencies are rewritten. -/
def keptTask (key : String) (t : BacklogTask) : BacklogTask :=
  rewriteCandidate task.id (secondChildId task.id) [firstChildId task.id, secondChildId task.id]
    (if key = task.id then { t with status := .superseded } else t)

/-- Apart from the status of the parent a split changes the dependencies alone. -/
theorem keptTask_eq (key : String) (t : BacklogTask) : ∃ dependsOn, keptTask task key t =
    { t with
      status := if key = task.id then .superseded else t.status
      dependsOn := dependsOn } := by
  obtain ⟨dependsOn, heq⟩ := rewriteCandidate_eq task.id (secondChildId task.id)
    [firstChildId task.id, secondChildId task.id]
    (if key = task.id then { t with status := .superseded } else t)
  refine ⟨dependsOn, ?_⟩
  rw [keptTask, heq]
  split <;> rfl

@[simp] theorem keptTask_id (key : String) (t : BacklogTask) : (keptTask task key t).id = t.id := by
  obtain ⟨_, heq⟩ := keptTask_eq task key t
  rw [heq]

@[simp] theorem keptTask_featureId (key : String) (t : BacklogTask) :
    (keptTask task key t).featureId = t.featureId := by
  obtain ⟨_, heq⟩ := keptTask_eq task key t
  rw [heq]

@[simp] theorem keptTask_splitFromTaskId (key : String) (t : BacklogTask) :
    (keptTask task key t).splitFromTaskId = t.splitFromTaskId := by
  obtain ⟨_, heq⟩ := keptTask_eq task key t
  rw [heq]

@[simp] theorem keptTask_acceptanceCriteria (key : String) (t : BacklogTask) :
    (keptTask task key t).acceptanceCriteria = t.acceptanceCriteria := by
  obtain ⟨_, heq⟩ := keptTask_eq task key t
  rw [heq]

@[simp] theorem keptTask_status (key : String) (t : BacklogTask) :
    (keptTask task key t).status = if key = task.id then .superseded else t.status := by
  obtain ⟨_, heq⟩ := keptTask_eq task key t
  rw [heq]

/-- What a kept task depends on: its old dependencies, or the second child in place of
the parent. -/
theorem mem_dependsOn_keptTask {key : String} {t : BacklogTask} {dependency : String}
    (h : dependency ∈ (keptTask task key t).dependsOn) :
    dependency ∈ t.dependsOn ∨ (dependency = secondChildId task.id ∧ task.id ∈ t.dependsOn) := by
  have hdeps := mem_dependsOn_rewriteCandidate _ _ _ _ h
  split at hdeps <;> exact hdeps

/-- The tasks of a split state, as the program writes them. -/
theorem tasks_splitTask :
    (state.splitTask ⟨task, task.id⟩ (splitTaskForRetry task reason)).backlog.tasks =
      (((state.backlog.tasks.modify task.id fun t => { t with status := .superseded }).set
        (firstChildId task.id) (splitTaskForRetry task reason).firstChild).set
        (secondChildId task.id) (splitTaskForRetry task reason).secondChild).mapVals
          fun _ candidate => rewriteCandidate task.id (secondChildId task.id)
            [firstChildId task.id, secondChildId task.id] candidate := rfl

/-- The tasks of a split state: the two children, and the old tasks with the parent
superseded and the dependencies rewritten. -/
theorem get?_splitTask (j : String) :
    (state.splitTask ⟨task, task.id⟩ (splitTaskForRetry task reason)).backlog.tasks.get? j =
      if j = secondChildId task.id then some (splitTaskForRetry task reason).secondChild
      else if j = firstChildId task.id then some (splitTaskForRetry task reason).firstChild
      else (state.backlog.tasks.get? j).map (keptTask task j) := by
  rw [tasks_splitTask, Dict.get?_mapVals, Dict.get?_set, Dict.get?_set, Dict.get?_modify]
  by_cases h₂ : j = secondChildId task.id
  · rw [if_pos h₂, if_pos h₂, Option.map_some, rewriteCandidate_of_child]
    exact List.mem_cons_of_mem _ List.mem_cons_self
  · rw [if_neg h₂, if_neg h₂]
    by_cases h₁ : j = firstChildId task.id
    · rw [if_pos h₁, if_pos h₁, Option.map_some, rewriteCandidate_of_child]
      exact List.mem_cons_self
    · rw [if_neg h₁, if_neg h₁]
      unfold keptTask
      by_cases h : j = task.id
      · simp only [if_pos h, Option.map_map]
        rfl
      · simp only [if_neg h]

/-- **The tasks of a split state**: a child, or an old task as the split keeps it. -/
theorem splitTask_cases {j : String} {t : BacklogTask}
    (h : (state.splitTask ⟨task, task.id⟩
      (splitTaskForRetry task reason)).backlog.tasks.get? j = some t) :
    (j = secondChildId task.id ∧ t = (splitTaskForRetry task reason).secondChild) ∨
      (j = firstChildId task.id ∧ t = (splitTaskForRetry task reason).firstChild) ∨
      ∃ t₀, state.backlog.tasks.get? j = some t₀ ∧ t = keptTask task j t₀ := by
  rw [get?_splitTask] at h
  split at h
  · next hj => exact Or.inl ⟨hj, (Option.some.inj h).symm⟩
  · split at h
    · next hj => exact Or.inr (Or.inl ⟨hj, (Option.some.inj h).symm⟩)
    · obtain ⟨t₀, ht₀, rfl⟩ := Option.map_eq_some_iff.mp h
      exact Or.inr (Or.inr ⟨t₀, ht₀, rfl⟩)

theorem mem_keys_splitTask {j : String} :
    j ∈ (state.splitTask ⟨task, task.id⟩
        (splitTaskForRetry task reason)).backlog.tasks.keys ↔
      j = secondChildId task.id ∨ j = firstChildId task.id ∨ j ∈ state.backlog.tasks.keys := by
  rw [tasks_splitTask, Dict.keys_mapVals, Dict.mem_keys_set, Dict.mem_keys_set, Dict.keys_modify]

/-- A split adds two children to the task split, and none to others. -/
theorem childCount_splitTask (h₁ : firstChildId task.id ∉ state.backlog.tasks.keys)
    (h₂ : secondChildId task.id ∉ state.backlog.tasks.keys) (j : String) :
    (state.splitTask ⟨task, task.id⟩ (splitTaskForRetry task reason)).childCount j =
      state.childCount j + if j = task.id then 2 else 0 := by
  have h₁' : firstChildId task.id ∉
      (state.backlog.tasks.modify task.id fun t => { t with status := .superseded }).keys := by
    rwa [Dict.keys_modify]
  have h₂' : secondChildId task.id ∉
      ((state.backlog.tasks.modify task.id fun t => { t with status := .superseded }).set
        (firstChildId task.id) (splitTaskForRetry task reason).firstChild).keys := by
    rw [Dict.mem_keys_set, Dict.keys_modify]
    rintro (heq | hmem)
    · exact firstChildId_ne_secondChildId _ _ heq.symm
    · exact h₂ hmem
  have hkept : (state.backlog.tasks.modify task.id fun t =>
        { t with status := .superseded }).values.countP (fun t => t.splitFromTaskId = some j) =
      state.childCount j := Dict.countP_values_modify fun _ => rfl
  unfold childCount at hkept ⊢
  rw [tasks_splitTask,
    Dict.countP_values_mapVals (q := fun t => t.splitFromTaskId = some j) fun _ t => by
      obtain ⟨_, heq⟩ := rewriteCandidate_eq task.id (secondChildId task.id)
        [firstChildId task.id, secondChildId task.id] t
      rw [heq],
    Dict.countP_values_set_of_notMem h₂', Dict.countP_values_set_of_notMem h₁', hkept]
  by_cases hj : j = task.id
  · simp [hj]
  · simp [hj, Ne.symm hj]

/-- A split changes the backlog and the blocked ids alone. -/
theorem splitTask_eq (handle : TaskHandle) (plan : SplitTaskPlan) :
    state.splitTask handle plan =
      { state with
        backlog := (state.splitTask handle plan).backlog
        execution := { state.execution with
          blockedTaskIds := state.execution.blockedTaskIds.filter (· ≠ handle.task.id) } } := by
  simp only [splitTask, SplitTaskPlan.childTasks, List.foldl_cons, List.foldl_nil, addChildTask,
    rewriteSupersededDependencies, setTaskStatus]

@[simp] theorem completedTaskIds_splitTask (handle : TaskHandle) (plan : SplitTaskPlan) :
    (state.splitTask handle plan).execution.completedTaskIds =
      state.execution.completedTaskIds := by
  rw [splitTask_eq]

@[simp] theorem failures_splitTask (handle : TaskHandle) (plan : SplitTaskPlan) :
    (state.splitTask handle plan).failures = state.failures := by
  rw [splitTask_eq]

@[simp] theorem artifacts_splitTask (handle : TaskHandle) (plan : SplitTaskPlan) :
    (state.splitTask handle plan).artifacts = state.artifacts := by
  rw [splitTask_eq]

theorem hasStatus_splitTask (hstored : state.backlog.tasks.get? task.id = some task)
    (j : String) (status : BacklogTaskStatus) :
    (state.splitTask ⟨task, task.id⟩ (splitTaskForRetry task reason)).HasStatus j status ↔
      if j = secondChildId task.id then .todo = status
      else if j = firstChildId task.id then .todo = status
      else if j = task.id then .superseded = status else state.HasStatus j status := by
  unfold HasStatus
  rw [get?_splitTask]
  by_cases h₂ : j = secondChildId task.id
  · simp [h₂]
  · by_cases h₁ : j = firstChildId task.id
    · simp [h₁, firstChildId_ne_secondChildId]
    · rw [if_neg h₂, if_neg h₁, if_neg h₂, if_neg h₁]
      by_cases hj : j = task.id
      · simp [hj, hstored]
      · simp [hj]

/-- A split of a todo task changes neither who is done nor who is blocked. -/
theorem hasStatus_splitTask_iff (hstored : state.backlog.tasks.get? task.id = some task)
    (htodo : task.status = .todo) (h₁ : firstChildId task.id ∉ state.backlog.tasks.keys)
    (h₂ : secondChildId task.id ∉ state.backlog.tasks.keys) {status : BacklogTaskStatus}
    (hstatus : status = .done ∨ status = .blocked) (j : String) :
    (state.splitTask ⟨task, task.id⟩ (splitTaskForRetry task reason)).HasStatus j status ↔
      state.HasStatus j status := by
  rw [hasStatus_splitTask state task reason hstored]
  split
  · next hj =>
    exact iff_of_false (by rcases hstatus with rfl | rfl <;> decide) fun hd => h₂ (hj ▸ hd.mem_keys)
  · split
    · next hj =>
      exact iff_of_false (by rcases hstatus with rfl | rfl <;> decide)
        fun hd => h₁ (hj ▸ hd.mem_keys)
    · split
      · next hj =>
        subst hj
        rw [hasStatus_iff hstored, htodo]
        rcases hstatus with rfl | rfl <;> decide
      · rfl

theorem blockedTaskIds_splitTask :
    (state.splitTask ⟨task, task.id⟩
        (splitTaskForRetry task reason)).execution.blockedTaskIds =
      state.execution.blockedTaskIds.filter (· ≠ task.id) := rfl

theorem features_splitTask :
    (state.splitTask ⟨task, task.id⟩ (splitTaskForRetry task reason)).backlog.features =
      (state.backlog.features.modify task.featureId fun feature =>
        { feature with taskIds := pushNew feature.taskIds (firstChildId task.id) }).modify
          task.featureId fun feature =>
        { feature with taskIds := pushNew feature.taskIds (secondChildId task.id) } := rfl

/-- **The features of a split state**: an old feature, with the children listed if it is
the parent's. -/
theorem splitTask_feature {key : String} {feature : Feature}
    (h : (state.splitTask ⟨task, task.id⟩
      (splitTaskForRetry task reason)).backlog.features.get? key = some feature) :
    ∃ f₀, state.backlog.features.get? key = some f₀ ∧ feature.epicId = f₀.epicId ∧
      feature.id = f₀.id ∧ ∀ id ∈ feature.taskIds, id ∈ f₀.taskIds ∨
        ((id = firstChildId task.id ∨ id = secondChildId task.id) ∧ key = task.featureId) := by
  rw [features_splitTask, Dict.get?_modify, Dict.get?_modify] at h
  split at h
  · next hkey =>
    rw [Option.map_map] at h
    obtain ⟨f₀, hf₀, rfl⟩ := Option.map_eq_some_iff.mp h
    refine ⟨f₀, hf₀, rfl, rfl, fun id hid => ?_⟩
    rcases mem_pushNew.mp hid with hid | rfl
    · rcases mem_pushNew.mp hid with hid | rfl
      · exact Or.inl hid
      · exact Or.inr ⟨Or.inl rfl, hkey⟩
    · exact Or.inr ⟨Or.inr rfl, hkey⟩
  · exact ⟨feature, h, rfl, rfl, fun id hid => Or.inl hid⟩

end SplitTask

/-- **Splitting keeps consistency.** -/
theorem Consistent.splitTask (h : state.Consistent) {handle : TaskHandle}
    (hown : state.OwnTodo handle) (hwhole : handle.task.splitFromTaskId = none) (reason : String) :
    (state.splitTask handle (splitTaskForRetry handle.task reason)).Consistent := by
  obtain ⟨hnotDone, hnotBlocked, hnoChild⟩ := h.ownTodo_facts hown
  obtain ⟨hfree₁, hfree₂⟩ := h.childIds_free hown.stored hown.todo
  obtain ⟨task, key⟩ := handle
  obtain rfl : key = task.id := hown.own
  have hstored : state.backlog.tasks.get? task.id = some task := hown.stored
  have hchild := state.childCount_splitTask task reason hfree₁ hfree₂
  -- Every task of the new state is a child, the parent or an old task, rewritten.
  have hcases : ∀ j t, (state.splitTask ⟨task, task.id⟩
        (splitTaskForRetry task reason)).backlog.tasks.get? j = some t →
      (j = secondChildId task.id ∧ t = (splitTaskForRetry task reason).secondChild) ∨
      (j = firstChildId task.id ∧ t = (splitTaskForRetry task reason).firstChild) ∨
      (j = task.id ∧ t.status = .superseded ∧ t.splitFromTaskId = none ∧ t.id = task.id) ∨
      (j ≠ task.id ∧ ∃ t₀, state.backlog.tasks.get? j = some t₀ ∧ t.id = t₀.id ∧
        t.status = t₀.status ∧ t.splitFromTaskId = t₀.splitFromTaskId) := by
    intro j t ht
    obtain hchild₂ | hchild₁ | ⟨t₀, ht₀, rfl⟩ := splitTask_cases state task reason ht
    · exact Or.inl hchild₂
    · exact Or.inr (Or.inl hchild₁)
    · by_cases hj : j = task.id
      · subst hj
        rw [hstored] at ht₀
        cases ht₀
        exact Or.inr (Or.inr (Or.inl ⟨rfl, by simp, by simpa using hwhole, by simp⟩))
      · exact Or.inr (Or.inr (Or.inr ⟨hj, t₀, ht₀, by simp, by simp [hj], by simp⟩))
  -- No old task lies under a child's key: both keys were free before the split.
  have hnotKey : ∀ {j t₀}, state.backlog.tasks.get? j = some t₀ →
      j ≠ firstChildId task.id ∧ j ≠ secondChildId task.id := by
    intro j t₀ ht₀
    have hmem := Dict.mem_keys_of_get? ht₀
    exact ⟨fun hj => hfree₁ (hj ▸ hmem), fun hj => hfree₂ (hj ▸ hmem)⟩
  have hhas := fun {status} => @hasStatus_splitTask_iff state task reason hstored hown.todo hfree₁
    hfree₂ status
  have hne₁ := firstChildId_ne_self task.id
  have hne₂ := secondChildId_ne_self task.id
  refine
    { keys := ?_, featureKeys := ?_, done_iff := ?_, blocked_iff := ?_
      completed_nodup := ?_, blocked_nodup := ?_, retry_eq := ?_, retry_counted := ?_
      split_stored := ?_, superseded_children := ?_, parent := ?_, child_whole := ?_, suffix := ?_ }
  · intro j t ht
    rcases hcases j t ht with ⟨rfl, rfl⟩ | ⟨rfl, rfl⟩ | ⟨rfl, -, -, hid⟩ | ⟨-, t₀, ht₀, hid, -, -⟩
    · rfl
    · rfl
    · exact hid
    · rw [hid]
      exact h.keys j t₀ ht₀
  · intro j feature hj
    obtain ⟨f₀, hf₀, -, hid, -⟩ := splitTask_feature state task reason hj
    rw [hid]
    exact h.featureKeys j f₀ hf₀
  -- The parent leaves the blocked list, and was never on it: it is a todo task.
  · intro j
    rw [completedTaskIds_splitTask, h.done_iff j, hhas (Or.inl rfl)]
  · intro j
    rw [blockedTaskIds_splitTask, List.mem_filter, h.blocked_iff j, hhas (Or.inr rfl)]
    refine and_iff_left_of_imp fun hj => ?_
    rw [decide_eq_true_eq]
    rintro rfl
    exact hnotBlocked ((h.blocked_iff _).mpr hj)
  · rw [completedTaskIds_splitTask]
    exact h.completed_nodup
  · exact h.blocked_nodup.filter _
  · exact h.retry_eq
  -- No child is called like an inherited member.
  · intro j hj hinherited
    rcases (mem_keys_splitTask state task reason).mp hj with rfl | rfl | hj
    · exact absurd hinherited (notMem_inheritedNames (by simp))
    · exact absurd hinherited (notMem_inheritedNames (by simp))
    · exact h.retry_counted j hj hinherited
  -- The children name the parent, which stays stored.
  · intro j t ht p hp
    have hparentKey : task.id ∈ state.backlog.tasks.keys := Dict.mem_keys_of_get? hstored
    rcases hcases j t ht with ⟨rfl, rfl⟩ | ⟨rfl, rfl⟩ | ⟨rfl, -, hnone, -⟩ |
      ⟨-, t₀, ht₀, -, -, hfrom⟩
    · cases hp
      exact Or.inl ((mem_keys_splitTask state task reason).mpr (Or.inr (Or.inr hparentKey)))
    · cases hp
      exact Or.inl ((mem_keys_splitTask state task reason).mpr (Or.inr (Or.inr hparentKey)))
    · rw [hnone] at hp
      cases hp
    · exact (h.split_stored j t₀ ht₀ p (hfrom ▸ hp)).mono fun i hi =>
        (mem_keys_splitTask state task reason).mpr (Or.inr (Or.inr hi))
  -- The one task superseded anew had no children, and now has these two.
  · intro j t ht hsup
    rw [hchild j]
    rcases hcases j t ht with ⟨rfl, rfl⟩ | ⟨rfl, rfl⟩ | ⟨rfl, -, -, -⟩ | ⟨hj, t₀, ht₀, -, hs, -⟩
    · cases hsup
    · cases hsup
    · rw [hnoChild, if_pos rfl]
    · rw [if_neg hj, Nat.add_zero]
      exact h.superseded_children j t₀ ht₀ (hs ▸ hsup)
  -- A fresh child has no children: no task could name it while its key was free.
  · intro j t ht hne
    rw [hchild j] at hne
    rcases hcases j t ht with ⟨rfl, rfl⟩ | ⟨rfl, rfl⟩ | ⟨rfl, hs, -, -⟩ | ⟨hj, t₀, ht₀, -, hs, -⟩
    · rw [if_neg hne₂, Nat.add_zero] at hne
      exact absurd (h.childCount_eq_zero hfree₂ (by simp)) hne
    · rw [if_neg hne₁, Nat.add_zero] at hne
      exact absurd (h.childCount_eq_zero hfree₁ (by simp)) hne
    · exact Or.inl hs
    · rw [if_neg hj, Nat.add_zero] at hne
      rw [hs]
      exact h.parent j t₀ ht₀ hne
  · intro j t ht hsplit
    rw [hchild j]
    rcases hcases j t ht with ⟨rfl, rfl⟩ | ⟨rfl, rfl⟩ | ⟨rfl, -, hnone, -⟩ |
      ⟨hj, t₀, ht₀, -, hs, hfrom⟩
    · rw [if_neg hne₂, Nat.add_zero]
      exact ⟨nofun, h.childCount_eq_zero hfree₂ (by simp)⟩
    · rw [if_neg hne₁, Nat.add_zero]
      exact ⟨nofun, h.childCount_eq_zero hfree₁ (by simp)⟩
    · exact absurd hnone hsplit
    · rw [if_neg hj, Nat.add_zero, hs]
      exact h.child_whole j t₀ ht₀ (hfrom ▸ hsplit)
  -- Ids that end like a child's: the two new ones, whose parent has children by now, and old ones.
  · intro j t ht hsuffix
    have hparent : (state.splitTask ⟨task, task.id⟩
        (splitTaskForRetry task reason)).childCount task.id ≠ 0 := by
      rw [hchild, if_pos rfl]
      omega
    rcases hcases j t ht with ⟨rfl, rfl⟩ | ⟨rfl, rfl⟩ | ⟨rfl, -, -, -⟩ | ⟨hj, t₀, ht₀, -, -, hfrom⟩
    · exact ⟨by simp, task.id, hparent, Or.inr rfl⟩
    · exact ⟨by simp, task.id, hparent, Or.inl rfl⟩
    · exact absurd hwhole (h.suffix _ _ hstored hsuffix).1
    · obtain ⟨hne, parent, hp, hid⟩ := h.suffix j t₀ ht₀ hsuffix
      refine ⟨hfrom ▸ hne, parent, ?_, hid⟩
      rw [hchild]
      omega

/-! ### Operator actions -/

section ModifyFailure

variable (state) (failureId : String) (f : FailureRecord → FailureRecord)

@[simp] theorem backlog_modifyFailure :
    (state.modifyFailure failureId f).backlog = state.backlog := rfl

@[simp] theorem execution_modifyFailure :
    (state.modifyFailure failureId f).execution = state.execution := rfl

/-- A failure record keeps its place and, under changes that keep the task, its task. -/
theorem map_taskId_modifyFailure (hf : ∀ failure, (f failure).taskId = failure.taskId) :
    (state.modifyFailure failureId f).failures.map FailureRecord.taskId =
      state.failures.map FailureRecord.taskId := by
  unfold modifyFailure
  split
  · next i _ =>
    refine List.ext_getElem (by simp) fun n h₁ h₂ => ?_
    simp only [List.getElem_map, List.getElem_modify]
    split
    · exact hf _
    · rfl
  · rfl

theorem failureCount_modifyFailure (hf : ∀ failure, (f failure).taskId = failure.taskId)
    (id : String) : (state.modifyFailure failureId f).failureCount id = state.failureCount id := by
  have hmap := state.map_taskId_modifyFailure failureId f hf
  have hcount : ∀ failures : List FailureRecord,
      failures.countP (fun failure => failure.taskId = id) =
        (failures.map FailureRecord.taskId).countP (· = id) := by
    intro failures
    rw [List.countP_map]
    rfl
  unfold failureCount
  rw [hcount, hcount, hmap]

end ModifyFailure

/-- The state with a blocked task made todo and unlisted. -/
def unblockTask (state : ProjectState) (task : BacklogTask) : ProjectState :=
  let state := state.setTaskStatus ⟨task, task.id⟩ .todo
  { state with
    execution := { state.execution with
      blockedTaskIds := state.execution.blockedTaskIds.filter (· ≠ task.id) } }

/-- **What resuming a failure does**: the failure was dead-lettered and is resumed, and
its task is made todo if it was blocked. -/
theorem resumeFailure_cases (h : state.Consistent) {failureId now : String}
    {state' : ProjectState} {failure : FailureRecord}
    (hok : state.resumeFailure failureId now = .ok (state', failure)) :
    state.failures.find? (fun failure => failure.id = failureId) = some failure ∧
    failure.statusOrDefault = .deadLettered ∧
    let resumed := state.modifyFailure failureId fun failure =>
      { failure with status := some .resumed, resumedAt := some now }
    (∃ task, state.backlog.tasks.get? failure.taskId = some task ∧ task.status = .blocked ∧
      task.id = failure.taskId ∧ state' = resumed.unblockTask task) ∨
    state' = resumed := by
  unfold resumeFailure at hok
  cases hfind : state.failures.find? (fun failure => failure.id = failureId) with
  | none =>
    rw [hfind] at hok
    cases hok
  | some found =>
    rw [hfind] at hok
    simp only at hok
    by_cases hdead : found.statusOrDefault ≠ .deadLettered
    · rw [if_pos hdead] at hok
      cases hok
    · rw [if_neg hdead] at hok
      cases htask : state.backlog.tasks.get? found.taskId with
      | none =>
        simp only [backlog_modifyFailure, htask] at hok
        cases hok
        exact ⟨rfl, not_not.mp hdead, Or.inr rfl⟩
      | some task =>
        have hid := h.keys _ _ htask
        simp only [backlog_modifyFailure, htask] at hok
        split at hok
        · next hblocked =>
          rw [← hid] at hok
          cases hok
          exact ⟨rfl, not_not.mp hdead, Or.inl ⟨task, htask, hblocked, hid, rfl⟩⟩
        · cases hok
          exact ⟨rfl, not_not.mp hdead, Or.inr rfl⟩

/-- Marking a failure keeps consistency. -/
theorem Consistent.modifyFailure (h : state.Consistent) (failureId : String)
    {f : FailureRecord → FailureRecord} (hf : ∀ failure, (f failure).taskId = failure.taskId) :
    (state.modifyFailure failureId f).Consistent :=
  h.of_eq rfl rfl rfl
    (fun id => (h.retry_eq id).trans (state.failureCount_modifyFailure failureId f hf id).symm)
    fun _ => id

/-- Unblocking a task keeps consistency. -/
theorem Consistent.unblockTask (h : state.Consistent) {task : BacklogTask}
    (hget : state.backlog.tasks.get? task.id = some task) (hblocked : task.status = .blocked) :
    (state.unblockTask task).Consistent := by
  have hnotDone : task.id ∉ state.execution.completedTaskIds := by
    rw [h.done_iff, hasStatus_iff hget, hblocked]
    decide
  have hrestatused : state.Restatused (state.unblockTask task) task.id task .todo := by
    refine ⟨hget, rfl, fun j => ?_, fun j => ?_⟩
    · change j ∈ state.execution.completedTaskIds ↔ _
      split
      · next hj =>
        subst hj
        exact iff_of_false hnotDone (by decide)
      · rfl
    · change j ∈ state.execution.blockedTaskIds.filter (· ≠ task.id) ↔ _
      rw [List.mem_filter]
      split
      · next hj => simp [hj]
      · next hj => simp [hj]
  refine h.of_restatused hrestatused h.completed_nodup (h.blocked_nodup.filter _) h.retry_eq rfl
    (by decide) fun hne => ?_
  rcases h.parent _ _ hget hne with hstatus | hstatus <;> rw [hblocked] at hstatus <;> cases hstatus

/-- **Resuming a failure keeps consistency.** -/
theorem Consistent.resumeFailure (h : state.Consistent) {failureId now : String}
    {state' : ProjectState} {failure : FailureRecord}
    (hok : state.resumeFailure failureId now = .ok (state', failure)) : state'.Consistent := by
  have hmarked := h.modifyFailure failureId
    (f := fun failure => { failure with status := some .resumed, resumedAt := some now })
    fun _ => rfl
  obtain ⟨-, -, ⟨task, hget, hblocked, hid, rfl⟩ | rfl⟩ := resumeFailure_cases h hok
  · exact hmarked.unblockTask (by rw [hid]; exact hget) hblocked
  · exact hmarked

/-- **What replaying a failure does**: the failure was dead-lettered and is replayed, and
its task and run are made the active ones. -/
theorem replayFromFailureCheckpoint_cases {failureId now : String} {state' : ProjectState}
    {failure : FailureRecord}
    (hok : state.replayFromFailureCheckpoint failureId now = .ok (state', failure)) :
    state.failures.find? (fun failure => failure.id = failureId) = some failure ∧
    failure.statusOrDefault = .deadLettered ∧
    state' =
      let marked := state.modifyFailure failureId fun failure =>
        { failure with status := some .replayed, replayedAt := some now }
      { marked with
        execution := { marked.execution with
          activeRunId :=
            if truthy failure.checkpointRunId then failure.checkpointRunId else none
          activeTaskId := some failure.taskId } } := by
  unfold replayFromFailureCheckpoint at hok
  cases hfind : state.failures.find? (fun failure => failure.id = failureId) with
  | none =>
    rw [hfind] at hok
    cases hok
  | some found =>
    rw [hfind] at hok
    simp only at hok
    split at hok
    · cases hok
    · next hdead =>
      cases hok
      exact ⟨rfl, not_not.mp hdead, rfl⟩

/-- Replaying a failure keeps consistency. -/
theorem Consistent.replayFailure (h : state.Consistent) {failureId now : String}
    {state' : ProjectState} {failure : FailureRecord}
    (hok : state.replayFromFailureCheckpoint failureId now = .ok (state', failure)) :
    state'.Consistent := by
  obtain ⟨-, -, rfl⟩ := replayFromFailureCheckpoint_cases hok
  have hmarked := h.modifyFailure failureId
    (f := fun failure => { failure with status := some .replayed, replayedAt := some now })
    fun _ => rfl
  exact hmarked.of_eq rfl rfl rfl hmarked.retry_eq fun _ => id

/-- **Marking a task done keeps consistency**, when the task is not blocked: the list of
blocked ids is left as it is. -/
theorem Consistent.markTaskDone (h : state.Consistent) {taskId : String} {task : BacklogTask}
    (hget : state.backlog.tasks.get? taskId = some task) (hnotBlocked : task.status ≠ .blocked)
    (summaryArtifact : ArtifactRecord) : (state.markTaskDone taskId summaryArtifact).Consistent := by
  have hunlisted : taskId ∉ state.execution.blockedTaskIds := by
    rwa [h.blocked_iff, hasStatus_iff hget]
  have hrestatused : state.Restatused (state.markTaskDone taskId summaryArtifact) taskId task
      .done := by
    refine ⟨hget, rfl, fun j => ?_, fun j => ?_⟩
    · change j ∈ pushNew state.execution.completedTaskIds taskId ↔ _
      rw [mem_pushNew]
      split
      · next hj => simp [hj]
      · next hj => simp [hj]
    · change j ∈ state.execution.blockedTaskIds ↔ _
      split
      · next hj =>
        subst hj
        exact iff_of_false hunlisted (by decide)
      · rfl
  exact h.of_restatused hrestatused (nodup_pushNew h.completed_nodup _) h.blocked_nodup h.retry_eq
    rfl (by decide) fun _ => rfl

end ProjectState

end AiOrchestrator
