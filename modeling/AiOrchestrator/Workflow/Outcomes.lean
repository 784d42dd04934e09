import AiOrchestrator.Workflow.Consistency

/-!
# Outcomes

The abstract model of the work on a backlog: a state changes by **outcomes**, each of
which is one of the updates of `Bookkeeping` together with whatever is recorded on the
side (artifacts, events' decisions, run steps, registry entries). `Outcome.step` is the
one induction step of this file: an outcome takes accepted and consistent states to
accepted and consistent states. What the programs do to a store is later shown to be a
sequence of outcomes.
-/

namespace AiOrchestrator

namespace ProjectState

/-! ### Parts of acceptance -/

/-- The backlog is well formed and its references resolve. -/
structure BacklogOk (state : ProjectState) : Prop where
  epics : ∀ epic ∈ state.backlog.epics.values, epic.SchemaOk
  features : ∀ feature ∈ state.backlog.features.values, feature.SchemaOk
  tasks : ∀ task ∈ state.backlog.tasks.values, task.SchemaOk
  featureRefs : ∀ feature ∈ state.backlog.features.values, state.FeatureRefsOk feature
  epicRefs : ∀ epic ∈ state.backlog.epics.values, ∀ featureId ∈ epic.featureIds,
    state.backlog.features.Finds featureId
  taskRefs : ∀ task ∈ state.backlog.tasks.values, state.TaskRefsOk task

/-- What is recorded beside the backlog is well formed. -/
structure RecordsOk (state : ProjectState) : Prop where
  decisions : ∀ decision ∈ state.decisions, decision.SchemaOk
  failures : ∀ failure ∈ state.failures, failure.SchemaOk
  artifacts : ∀ artifact ∈ state.artifacts, artifact.SchemaOk
  approvals : ∀ request ∈ state.approvals, request.SchemaOk
  policyDecisions : ∀ decision ∈ state.policyDecisions,
    decision.SchemaOk ∧ decision.tenantId = state.orgId ∧ decision.projectId = state.projectId
  activeRun : NonemptyIfPresent state.execution.activeRunId
  activeTask : ∀ id, state.execution.activeTaskId = some id →
    id ≠ "" ∧ state.backlog.tasks.Finds id
  runSteps : ∀ step ∈ state.execution.runStepLog, step.SchemaOk
  dedup : ∀ entry ∈ state.execution.dedupRegistry.values, entry.SchemaOk

/-- The parts of a state no run touches. -/
structure SameFrame (state state' : ProjectState) : Prop where
  orgId : state'.orgId = state.orgId
  projectId : state'.projectId = state.projectId
  milestones : state'.milestones = state.milestones
  currentMilestoneId : state'.currentMilestoneId = state.currentMilestoneId
  discovery : state'.discovery = state.discovery
  architecture : state'.architecture = state.architecture

/-- Something is on record about a task: a failure or an artifact. -/
def OnRecord (state : ProjectState) (taskId : String) : Prop :=
  (∃ failure ∈ state.failures, failure.taskId = taskId) ∨
    ∃ artifact ∈ state.artifacts, artifact.metadata.get? "taskId" = some taskId

variable {state state' : ProjectState}

theorem SameFrame.refl (state : ProjectState) : state.SameFrame state :=
  ⟨rfl, rfl, rfl, rfl, rfl, rfl⟩

theorem sameFrame_splitTask (state : ProjectState) (handle : TaskHandle) (plan : SplitTaskPlan) :
    state.SameFrame (state.splitTask handle plan) := by
  rw [splitTask_eq]
  exact ⟨rfl, rfl, rfl, rfl, rfl, rfl⟩

theorem Valid.backlogOk (h : state.Valid) : state.BacklogOk where
  epics := h.schema.epics
  features := h.schema.features
  tasks := h.schema.tasks
  featureRefs := h.featureRefs
  epicRefs := h.epicRefs
  taskRefs := h.taskRefs

theorem Valid.recordsOk (h : state.Valid) : state.RecordsOk where
  decisions := h.schema.decisions
  failures := h.schema.failures
  artifacts := h.schema.artifacts
  approvals := h.schema.approvals
  policyDecisions := fun decision hmem =>
    ⟨h.schema.policyDecisions decision hmem, h.policyScope decision hmem⟩
  activeRun := h.schema.execution.2.1
  activeTask := fun id hid =>
    have hne := h.schema.execution.1 id hid
    ⟨hne, h.activeTask id hid hne⟩
  runSteps := h.schema.execution.2.2.2.2.1
  dedup := h.schema.execution.2.2.2.2.2

theorem Valid.onRecord (h : state.Valid) {taskId : String}
    (hmem : taskId ∈ state.execution.blockedTaskIds) : state.OnRecord taskId := by
  obtain ⟨-, -, -, hrecord⟩ := h.blockedRefs taskId hmem
  exact hrecord

/-- **Acceptance from its parts**: consistency settles the references of the two lists. -/
theorem Valid.assemble (h : state.Valid) (hframe : state.SameFrame state')
    (hbacklog : state'.BacklogOk) (hrecords : state'.RecordsOk) (hconsistent : state'.Consistent)
    (hblocked : ∀ id ∈ state'.execution.blockedTaskIds, state'.OnRecord id) : state'.Valid := by
  have hnonempty : ∀ id status, state'.HasStatus id status → id ≠ "" := by
    rintro id status ⟨task, hget, -⟩
    rw [← hconsistent.keys id task hget]
    exact (hbacklog.tasks task (Dict.mem_values_of_get? hget)).1
  refine
    { schema :=
        { org := ?_, epics := hbacklog.epics, features := hbacklog.features
          tasks := hbacklog.tasks, milestones := ?_, decisions := hrecords.decisions
          failures := hrecords.failures, artifacts := hrecords.artifacts
          approvals := hrecords.approvals
          policyDecisions := fun d hd => (hrecords.policyDecisions d hd).1
          execution := ⟨fun id hid => (hrecords.activeTask id hid).1, hrecords.activeRun, ?_, ?_,
            hrecords.runSteps, hrecords.dedup⟩ }
      discovery := ?_, findings := ?_
      policyScope := fun d hd => (hrecords.policyDecisions d hd).2
      analysisSummary := ?_, currentMilestone := ?_
      activeTask := fun id hid _ => (hrecords.activeTask id hid).2
      featureRefs := hbacklog.featureRefs, epicRefs := hbacklog.epicRefs
      taskRefs := hbacklog.taskRefs, oneInProgress := ?_, blockedRefs := ?_, completedRefs := ?_ }
  · rw [hframe.orgId]
    exact h.schema.org
  · rw [hframe.milestones]
    exact h.schema.milestones
  · intro id hid
    exact hnonempty id .done ((hconsistent.done_iff id).mp hid)
  · intro id hid
    exact hnonempty id .blocked ((hconsistent.blocked_iff id).mp hid)
  · rw [hframe.discovery]
    exact h.discovery
  · rw [hframe.architecture]
    exact h.findings
  · rw [hframe.architecture]
    exact h.analysisSummary
  · rw [hframe.currentMilestoneId, hframe.milestones]
    exact h.currentMilestone
  · rw [hframe.milestones]
    exact h.oneInProgress
  · intro id hid
    obtain ⟨task, hget, hstatus⟩ := (hconsistent.blocked_iff id).mp hid
    exact ⟨task, hget, hstatus, hblocked id hid⟩
  · intro id hid
    exact (hconsistent.done_iff id).mp hid

/-! ### The backlog stays well formed -/

/-- The references and schemas of a backlog depend on the backlog alone. -/
theorem BacklogOk.of_eq (h : state.BacklogOk) (hbacklog : state'.backlog = state.backlog) :
    state'.BacklogOk := by
  obtain ⟨h₁, h₂, h₃, h₄, h₅, h₆⟩ := h
  unfold FeatureRefsOk at h₄
  unfold TaskRefsOk at h₆
  refine ⟨?_, ?_, ?_, ?_, ?_, ?_⟩ <;> simp only [FeatureRefsOk, TaskRefsOk, hbacklog] <;> assumption

/-- A change of a task's status leaves the backlog well formed. -/
theorem BacklogOk.setTaskStatus (h : state.BacklogOk) (handle : TaskHandle)
    (status : BacklogTaskStatus) : (state.setTaskStatus handle status).BacklogOk := by
  obtain ⟨task, key⟩ := handle
  have hkeys := keys_setTaskStatus state task key status
  refine
    { epics := h.epics, features := h.features, tasks := ?_, featureRefs := ?_
      epicRefs := h.epicRefs, taskRefs := ?_ }
  · exact Dict.forall_values_modify h.tasks fun t ht => h.tasks t (Dict.mem_values_of_get? ht)
  · intro feature hmem
    obtain ⟨hepic, htasks⟩ := h.featureRefs feature hmem
    refine ⟨hepic, fun taskId hid => ?_⟩
    obtain ⟨t, hget, hfeature⟩ := htasks taskId hid
    rw [get?_setTaskStatus]
    split
    · exact ⟨{ t with status := status }, by rw [hget, Option.map_some], hfeature⟩
    · exact ⟨t, hget, hfeature⟩
  · have hrefs : ∀ t, state.TaskRefsOk t →
        (state.setTaskStatus ⟨task, key⟩ status).TaskRefsOk t := by
      intro t ht
      obtain ⟨hchecks, hparent, hdeps⟩ := ht
      refine ⟨hchecks, fun parent hp hne => ?_, fun dependency hdep => ?_⟩
      · exact (hparent parent hp hne).mono fun j hj => hkeys ▸ hj
      · exact (hdeps dependency hdep).mono fun j hj => hkeys ▸ hj
    exact Dict.forall_values_modify (fun t ht => hrefs t (h.taskRefs t ht)) fun t ht =>
      hrefs _ (h.taskRefs t (Dict.mem_values_of_get? ht))

/-- A non-empty text stays non-empty under an extension. -/
theorem append_ne_empty {text : String} (suffix : String) (h : text ≠ "") : text ++ suffix ≠ "" := by
  intro hnil
  rw [String.append_eq_empty_iff] at hnil
  exact h hnil.1

/-- The two children of a well-formed task are well formed. -/
theorem schemaOk_splitTaskForRetry {task : BacklogTask} (h : task.SchemaOk) (reason : String) :
    (splitTaskForRetry task reason).firstChild.SchemaOk ∧
      (splitTaskForRetry task reason).secondChild.SchemaOk := by
  obtain ⟨hid, hfeature, -, htitle, hdeps, hcriteria, hmodules⟩ := h
  have hids : firstChildId task.id ≠ "" ∧ secondChildId task.id ≠ "" :=
    ⟨append_ne_empty _ hid, append_ne_empty _ hid⟩
  obtain ⟨hcriteria₁, hcriteria₂⟩ := splitAcceptanceCriteria_nonempty hcriteria
  have hparent : NonemptyIfPresent (some task.id) := by
    rintro _ ⟨⟩
    exact hid
  refine ⟨⟨hids.1, hfeature, hparent, append_ne_empty _ htitle, hdeps, hcriteria₁, hmodules⟩,
    ⟨hids.2, hfeature, hparent, append_ne_empty _ htitle, ?_, hcriteria₂, hmodules⟩⟩
  intro dependency hmem
  rw [List.mem_singleton.mp hmem]
  exact hids.1

/-- The children pass the task checks. -/
theorem validateBacklogTask_splitTaskForRetry (task : BacklogTask) (reason : String) :
    validateBacklogTask (splitTaskForRetry task reason).firstChild = [] ∧
      validateBacklogTask (splitTaskForRetry task reason).secondChild = [] := by
  obtain ⟨hne₁, hne₂⟩ := splitAcceptanceCriteria_ne_nil task.acceptanceCriteria
  rw [validateBacklogTask_eq_nil_iff, validateBacklogTask_eq_nil_iff]
  refine ⟨⟨hne₁, fun h => ?_⟩, ⟨hne₂, fun h => ?_⟩⟩
  · exact firstChildId_ne_self task.id (Option.some.inj h).symm
  · exact secondChildId_ne_self task.id (Option.some.inj h).symm

/-- **A split leaves the backlog well formed.** -/
theorem BacklogOk.splitTask (h : state.BacklogOk) (hconsistent : state.Consistent)
    {handle : TaskHandle} (hown : state.OwnTodo handle) (reason : String) :
    (state.splitTask handle (splitTaskForRetry handle.task reason)).BacklogOk := by
  obtain ⟨task, key⟩ := handle
  obtain rfl : key = task.id := hown.own
  have hstored : state.backlog.tasks.get? task.id = some task := hown.stored
  obtain ⟨hfree₁, hfree₂⟩ := hconsistent.childIds_free hown.stored hown.todo
  have hmem := Dict.mem_values_of_get? hstored
  obtain ⟨hschema₁, hschema₂⟩ := schemaOk_splitTaskForRetry (h.tasks task hmem) reason
  obtain ⟨hchecks₁, hchecks₂⟩ := validateBacklogTask_splitTaskForRetry task reason
  have hkeys : ∀ {j}, j ∈ state.backlog.tasks.keys → j ∈ (state.splitTask ⟨task, task.id⟩
      (splitTaskForRetry task reason)).backlog.tasks.keys := fun hj =>
    (mem_keys_splitTask state task reason).mpr (Or.inr (Or.inr hj))
  -- Every old task is still there, in its feature.
  have hold : ∀ j t, state.backlog.tasks.get? j = some t → ∃ t', (state.splitTask ⟨task, task.id⟩
      (splitTaskForRetry task reason)).backlog.tasks.get? j = some t' ∧
        t'.featureId = t.featureId := by
    intro j t hget
    have hj := Dict.mem_keys_of_get? hget
    have hne₁ : j ≠ firstChildId task.id := fun heq => hfree₁ (heq ▸ hj)
    have hne₂ : j ≠ secondChildId task.id := fun heq => hfree₂ (heq ▸ hj)
    rw [get?_splitTask, if_neg hne₂, if_neg hne₁, hget, Option.map_some]
    exact ⟨_, rfl, keptTask_featureId task j t⟩
  refine
    { epics := h.epics, features := ?_, tasks := ?_, featureRefs := ?_, epicRefs := ?_
      taskRefs := ?_ }
  -- The feature of the task lists the two child ids now, neither of them empty.
  · rw [features_splitTask]
    have hpush : ∀ {ids : List String} {id : String}, AllNonempty ids → id ≠ "" →
        AllNonempty (pushNew ids id) := by
      intro ids id hids hid text htext
      rcases mem_pushNew.mp htext with htext | rfl
      · exact hids text htext
      · exact hid
    have hstep : ∀ {features : Record Feature} {id : String}, id ≠ "" →
        (∀ feature ∈ features.values, feature.SchemaOk) →
        ∀ feature ∈ (features.modify task.featureId fun feature =>
          { feature with taskIds := pushNew feature.taskIds id }).values, feature.SchemaOk := by
      intro features id hid hfeatures
      refine Dict.forall_values_modify hfeatures fun feature hget => ?_
      obtain ⟨h₁, h₂, h₃, h₄, h₅, h₆⟩ := hfeatures feature (Dict.mem_values_of_get? hget)
      exact ⟨h₁, h₂, h₃, h₄, h₅, hpush h₆ hid⟩
    exact hstep hschema₂.1 (hstep hschema₁.1 h.features)
  -- A kept task may depend on the second child in place of its parent.
  · intro t ht
    obtain ⟨j, hj⟩ := Dict.mem_values_iff.mp ht
    obtain ⟨-, rfl⟩ | ⟨-, rfl⟩ | ⟨t₀, ht₀, rfl⟩ := splitTask_cases state task reason hj
    · exact hschema₂
    · exact hschema₁
    · obtain ⟨h₁, h₂, h₃, h₄, h₅, h₆, h₇⟩ := h.tasks t₀ (Dict.mem_values_of_get? ht₀)
      have hdeps : AllNonempty (keptTask task j t₀).dependsOn := by
        intro dependency hdep
        rcases mem_dependsOn_keptTask task hdep with hdep | ⟨rfl, -⟩
        · exact h₅ dependency hdep
        · exact hschema₂.1
      obtain ⟨dependsOn, heq⟩ := keptTask_eq task j t₀
      rw [heq] at hdeps ⊢
      exact ⟨h₁, h₂, h₃, h₄, hdeps, h₆, h₇⟩
  -- An id that a feature lists is an old task's, or a child's: then the feature is that of the
  -- parent, since features lie under their own ids.
  · intro feature hfeature
    obtain ⟨key, hkey⟩ := Dict.mem_values_iff.mp hfeature
    obtain ⟨f₀, hf₀, hepic, hid, htaskIds⟩ := splitTask_feature state task reason hkey
    obtain ⟨hepicRef, htaskRefs⟩ := h.featureRefs f₀ (Dict.mem_values_of_get? hf₀)
    refine ⟨by rw [hepic]; exact hepicRef, fun taskId hmemId => ?_⟩
    rw [hid]
    rcases htaskIds taskId hmemId with hmemId | ⟨hchild, hfeatureKey⟩
    · obtain ⟨t₀, ht₀, hfeatureId⟩ := htaskRefs taskId hmemId
      obtain ⟨t', ht', hfeatureId'⟩ := hold taskId t₀ ht₀
      exact ⟨t', ht', hfeatureId'.trans hfeatureId⟩
    · have hown' : task.featureId = f₀.id := by
        rw [hconsistent.featureKeys key f₀ hf₀, hfeatureKey]
      rw [get?_splitTask]
      rcases hchild with rfl | rfl
      · rw [if_neg (firstChildId_ne_secondChildId _ _), if_pos rfl]
        exact ⟨_, rfl, hown'⟩
      · rw [if_pos rfl]
        exact ⟨_, rfl, hown'⟩
  · intro epic hepic featureId hmemId
    refine (h.epicRefs epic hepic featureId hmemId).mono fun j hj => ?_
    rw [features_splitTask, Dict.keys_modify, Dict.keys_modify]
    exact hj
  -- No reference of an old task is lost, since every old key stays.
  · intro t ht
    obtain ⟨j, hj⟩ := Dict.mem_values_iff.mp ht
    have hparentKey := hkeys (Dict.mem_keys_of_get? hstored)
    obtain ⟨-, rfl⟩ | ⟨-, rfl⟩ | ⟨t₀, ht₀, rfl⟩ := splitTask_cases state task reason hj
    · refine ⟨hchecks₂, ?_, ?_⟩
      · rintro parent ⟨⟩ -
        exact Or.inl hparentKey
      · intro dependency hdep
        rw [List.mem_singleton.mp hdep]
        exact Or.inl ((mem_keys_splitTask state task reason).mpr (Or.inr (Or.inl rfl)))
    · refine ⟨hchecks₁, ?_, ?_⟩
      · rintro parent ⟨⟩ -
        exact Or.inl hparentKey
      · intro dependency hdep
        exact ((h.taskRefs task hmem).2.2 dependency hdep).mono fun _ => hkeys
    · obtain ⟨hchecks, hparent, hdeps⟩ := h.taskRefs t₀ (Dict.mem_values_of_get? ht₀)
      refine ⟨?_, ?_, ?_⟩
      · rw [validateBacklogTask_eq_nil_iff] at hchecks ⊢
        simpa using hchecks
      · intro parent hp hne
        rw [keptTask_splitFromTaskId] at hp
        exact (hparent parent hp hne).mono fun _ => hkeys
      · intro dependency hdep
        rcases mem_dependsOn_keptTask task hdep with hdep | ⟨rfl, -⟩
        · exact (hdeps dependency hdep).mono fun _ => hkeys
        · exact Or.inl ((mem_keys_splitTask state task reason).mpr (Or.inl rfl))

/-! ### Outcomes -/

/-- The bookkeeping of two states is the same. -/
structure SameBook (state state' : ProjectState) : Prop where
  backlog : state'.backlog = state.backlog
  completed : state'.execution.completedTaskIds = state.execution.completedTaskIds
  blocked : state'.execution.blockedTaskIds = state.execution.blockedTaskIds
  retryCounts : state'.execution.retryCounts = state.execution.retryCounts
  failures : state'.failures = state.failures

/-- **Records on the side**: bookkeeping and frame stay, artifacts are only added, and
everything on record is well formed. -/
structure Recorded (state state' : ProjectState) : Prop where
  book : state.SameBook state'
  frame : state.SameFrame state'
  artifacts : ∀ artifact ∈ state.artifacts, artifact ∈ state'.artifacts
  records : state'.RecordsOk

/-- The kinds of outcomes. -/
inductive OutcomeKind
  | recorded | failed | completed | split | blocked | resumed | replayed | markedDone
deriving DecidableEq, Repr

/-- **Outcomes**: what the ends of runs and the operator's actions do to a state. A retry
is a failure alone; a split and a block follow the failure that led to them. -/
inductive Outcome : OutcomeKind → ProjectState → ProjectState → Prop
  /-- Something was recorded on the side. -/
  | recorded {state state' : ProjectState} (h : state.Recorded state') :
      Outcome .recorded state state'
  /-- A failure of a task was counted. -/
  | failed {state state' : ProjectState} (failure : FailureRecord)
      (h : (state.countFailure failure).Recorded state') : Outcome .failed state state'
  /-- A run completed its task. -/
  | completed {state state' : ProjectState} {handle : TaskHandle} (own : state.OwnTodo handle)
      (h : (state.completeTask handle).Recorded state') : Outcome .completed state state'
  /-- An original task was split. -/
  | split {state state' : ProjectState} {handle : TaskHandle} (reason : String)
      (own : state.OwnTodo handle) (whole : handle.task.splitFromTaskId = none)
      (h : (state.splitTask handle (splitTaskForRetry handle.task reason)).Recorded state') :
      Outcome .split state state'
  /-- A split child was blocked after a failure. -/
  | blocked {state state' : ProjectState} {handle : TaskHandle} (own : state.OwnTodo handle)
      (failed : state.failureCount handle.task.id ≠ 0)
      (h : (state.blockTask handle).Recorded state') : Outcome .blocked state state'
  /-- The operator resumed a dead-lettered failure. -/
  | resumed {state resumed state' : ProjectState} {failureId now : String} {failure : FailureRecord}
      (ok : state.resumeFailure failureId now = .ok (resumed, failure))
      (h : resumed.Recorded state') : Outcome .resumed state state'
  /-- The operator replayed a dead-lettered failure. -/
  | replayed {state replayed state' : ProjectState} {failureId now : String}
      {failure : FailureRecord}
      (ok : state.replayFromFailureCheckpoint failureId now = .ok (replayed, failure))
      (h : replayed.Recorded state') : Outcome .replayed state state'
  /-- A store marked a task done, and accepted the result. -/
  | markedDone {state state' : ProjectState} {taskId : String} {task : BacklogTask}
      {summaryArtifact : ArtifactRecord} (stored : state.backlog.tasks.get? taskId = some task)
      (accepted : state'.Valid) (h : (state.markTaskDone taskId summaryArtifact).Recorded state') :
      Outcome .markedDone state state'

/-- Consistency depends on the bookkeeping alone. -/
theorem SameBook.consistent (h : state.SameBook state') (hconsistent : state.Consistent) :
    state'.Consistent := by
  refine hconsistent.of_eq h.backlog h.completed h.blocked (fun id => ?_) fun id hid =>
    h.retryCounts ▸ hid
  have hretry : state'.retryCount id = state.retryCount id := by
    unfold retryCount
    rw [h.retryCounts]
  have hcount : state'.failureCount id = state.failureCount id := by
    unfold failureCount
    rw [h.failures]
  rw [hretry, hcount, hconsistent.retry_eq]

/-- What is on record stays on record. -/
theorem Recorded.onRecord (h : state.Recorded state') {id : String} (hid : state.OnRecord id) :
    state'.OnRecord id := by
  rcases hid with ⟨failure, hmem, hid⟩ | ⟨artifact, hmem, hid⟩
  · exact Or.inl ⟨failure, h.book.failures ▸ hmem, hid⟩
  · exact Or.inr ⟨artifact, h.artifacts artifact hmem, hid⟩

/-- A task with a failure is on record. -/
theorem onRecord_of_failureCount {id : String} (h : state.failureCount id ≠ 0) :
    state.OnRecord id := by
  obtain ⟨failure, hmem, hid⟩ := List.countP_pos_iff.mp (Nat.pos_of_ne_zero h)
  exact Or.inl ⟨failure, hmem, of_decide_eq_true hid⟩

/-- What is on record stays on record when failures are marked. -/
theorem OnRecord.modifyFailure {id : String} (h : state.OnRecord id) (failureId : String)
    {f : FailureRecord → FailureRecord} (hf : ∀ failure, (f failure).taskId = failure.taskId) :
    (state.modifyFailure failureId f).OnRecord id := by
  rcases h with ⟨failure, hmem, hid⟩ | hartifact
  · have htaskId : id ∈ (state.modifyFailure failureId f).failures.map FailureRecord.taskId := by
      rw [map_taskId_modifyFailure state failureId f hf]
      exact List.mem_map.mpr ⟨failure, hmem, hid⟩
    obtain ⟨failure', hmem', hid'⟩ := List.mem_map.mp htaskId
    exact Or.inl ⟨failure', hmem', hid'⟩
  · exact Or.inr hartifact

/-- **An update followed by records**: a consistent update of an accepted state that keeps
the frame and leaves the backlog well formed ends in an accepted and consistent state. -/
theorem Recorded.accepted {updated : ProjectState} (hrecorded : updated.Recorded state')
    (h : state.Valid) (hframe : state.SameFrame updated) (hbacklog : updated.BacklogOk)
    (hconsistent : updated.Consistent)
    (hblocked : ∀ id ∈ updated.execution.blockedTaskIds, updated.OnRecord id) :
    state'.Valid ∧ state'.Consistent := by
  have hconsistent' := hrecorded.book.consistent hconsistent
  refine ⟨h.assemble ?_ (hbacklog.of_eq hrecorded.book.backlog) hrecorded.records hconsistent' ?_,
    hconsistent'⟩
  · obtain ⟨h₁, h₂, h₃, h₄, h₅, h₆⟩ := hframe
    obtain ⟨h₁', h₂', h₃', h₄', h₅', h₆'⟩ := hrecorded.frame
    exact ⟨h₁'.trans h₁, h₂'.trans h₂, h₃'.trans h₃, h₄'.trans h₄, h₅'.trans h₅, h₆'.trans h₆⟩
  · intro id hid
    rw [hrecorded.book.blocked] at hid
    exact hrecorded.onRecord (hblocked id hid)

/-- **Outcomes keep acceptance and consistency.** -/
theorem Outcome.step {kind : OutcomeKind} (houtcome : Outcome kind state state')
    (h : state.Valid) (hconsistent : state.Consistent) : state'.Valid ∧ state'.Consistent := by
  have hrecord : ∀ id ∈ state.execution.blockedTaskIds, state.OnRecord id := fun _ => h.onRecord
  cases houtcome with
  | recorded hrec =>
    exact hrec.accepted h ⟨rfl, rfl, rfl, rfl, rfl, rfl⟩ h.backlogOk hconsistent hrecord
  | failed failure hrec =>
    refine hrec.accepted h ⟨rfl, rfl, rfl, rfl, rfl, rfl⟩ (h.backlogOk.of_eq rfl)
      (hconsistent.countFailure failure) fun id hid => ?_
    rcases hrecord id hid with ⟨failure', hmem, htask⟩ | hartifact
    · exact Or.inl ⟨failure', List.mem_append_left _ hmem, htask⟩
    · exact Or.inr hartifact
  | completed own hrec =>
    exact hrec.accepted h ⟨rfl, rfl, rfl, rfl, rfl, rfl⟩
      ((h.backlogOk.setTaskStatus _ .done).of_eq rfl) (hconsistent.completeTask own) hrecord
  | split reason own whole hrec =>
    refine hrec.accepted h (sameFrame_splitTask _ _ _) (h.backlogOk.splitTask hconsistent own reason)
      (hconsistent.splitTask own whole reason) fun id hid => ?_
    rw [splitTask_eq] at hid
    unfold OnRecord
    rw [failures_splitTask, artifacts_splitTask]
    exact hrecord id (List.mem_of_mem_filter hid)
  | @blocked _ _ handle own hfailed hrec =>
    refine hrec.accepted h ⟨rfl, rfl, rfl, rfl, rfl, rfl⟩
      ((h.backlogOk.setTaskStatus _ .blocked).of_eq rfl) (hconsistent.blockTask own)
      fun id hid => ?_
    rcases mem_pushNew.mp hid with hid | rfl
    · exact hrecord id hid
    · exact onRecord_of_failureCount hfailed
  | @resumed _ resumed _ failureId now failure hok hrec =>
    have hkept : ∀ id, state.OnRecord id → (state.modifyFailure failureId fun failure =>
        { failure with status := some .resumed, resumedAt := some now }).OnRecord id :=
      fun id hid => hid.modifyFailure failureId fun _ => rfl
    have hconsistent' := hconsistent.resumeFailure hok
    obtain ⟨-, -, ⟨task, -, -, -, rfl⟩ | rfl⟩ := resumeFailure_cases hconsistent hok
    · refine hrec.accepted h ⟨rfl, rfl, rfl, rfl, rfl, rfl⟩
        ((h.backlogOk.setTaskStatus ⟨task, task.id⟩ .todo).of_eq rfl) hconsistent'
        fun id hid => ?_
      exact hkept id (hrecord id (List.mem_of_mem_filter hid))
    · exact hrec.accepted h ⟨rfl, rfl, rfl, rfl, rfl, rfl⟩ (h.backlogOk.of_eq rfl) hconsistent'
        fun id hid => hkept id (hrecord id hid)
  | @replayed _ replayed _ failureId now failure hok hrec =>
    obtain ⟨-, -, rfl⟩ := replayFromFailureCheckpoint_cases hok
    refine hrec.accepted h ⟨rfl, rfl, rfl, rfl, rfl, rfl⟩ (h.backlogOk.of_eq rfl)
      (hconsistent.replayFailure hok) fun id hid => ?_
    exact (hrecord id hid).modifyFailure failureId
      (f := fun failure => { failure with status := some .replayed, replayedAt := some now })
      fun _ => rfl
  | @markedDone _ _ taskId task summaryArtifact stored accepted hrec =>
    refine ⟨accepted, hrec.book.consistent (hconsistent.markTaskDone stored (fun hblocked => ?_) _)⟩
    -- A blocked task would still be listed as blocked, which the accepted result denies.
    have hlisted : taskId ∈ state'.execution.blockedTaskIds := by
      rw [hrec.book.blocked]
      exact (hconsistent.blocked_iff taskId).mpr ((hasStatus_iff stored).mpr hblocked)
    obtain ⟨task', hget', hstatus', -⟩ := accepted.blockedRefs taskId hlisted
    rw [hrec.book.backlog] at hget'
    change (state.backlog.tasks.modify taskId fun t => { t with status := .done }).get? taskId =
      some task' at hget'
    rw [Dict.get?_modify_self, stored] at hget'
    cases hget'
    cases hstatus'

/-- **Runs of outcomes** of the given kinds. -/
def Outcomes (kinds : OutcomeKind → Prop) : ProjectState → ProjectState → Prop :=
  Relation.ReflTransGen fun state state' => ∃ kind, kinds kind ∧ Outcome kind state state'

/-- Any run of outcomes keeps acceptance and consistency. -/
theorem Outcomes.run {kinds : OutcomeKind → Prop} (hrun : Outcomes kinds state state')
    (h : state.Valid) (hconsistent : state.Consistent) : state'.Valid ∧ state'.Consistent := by
  induction hrun with
  | refl => exact ⟨h, hconsistent⟩
  | tail _ hstep ih =>
    obtain ⟨_, -, houtcome⟩ := hstep
    exact houtcome.step ih.1 ih.2

end ProjectState

end AiOrchestrator
