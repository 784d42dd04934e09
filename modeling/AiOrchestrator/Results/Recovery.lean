import AiOrchestrator.Results.Scheduling
import AiOrchestrator.State.Listings

/-!
# Recovery checkpoints

`getLatestByTaskId` looks for the step to recover from on the first page of the task's steps only: the
two hundred newest ones. `getLatestByTaskId_correct_iff` says in which logs it is there.
-/

namespace AiOrchestrator

variable (host : Host)

/-- **The recovery checkpoint of a task**: of a recovery step than which none is newer, or none where
the log has no recovery step of the task. -/
def LatestRecovery (log : List RunStepLogEntry) (taskId : String) :
    Option RecoveryCheckpoint → Prop
  | some checkpoint => ∃ step ∈ log, step.recovers taskId = true ∧
      checkpoint = step.checkpoint taskId ∧
      ∀ other ∈ log, other.recovers taskId = true →
        OldestFirst host RunStepLogEntry.createdAt other step
  | none => ∀ step ∈ log, step.recovers taskId = false

/-- `getLatestByTaskId` finds the recovery checkpoint of the task. -/
def RecoveryFound (state : ProjectState) (taskId : String) : Prop :=
  ∃ checkpoint, getLatestByTaskId host state taskId = .ok checkpoint ∧
    LatestRecovery host state.execution.runStepLog taskId checkpoint

/-- The page of a task that `getLatestByTaskId` reads. -/
def recoveryPage (state : ProjectState) (taskId : String) : List RunStepLogEntry :=
  ((state.execution.runStepLog.filter fun step =>
    taskId == "" || step.taskId == some taskId).insertionSort
      (NewestFirst host RunStepLogEntry.createdAt)).take 200

/-- The recovery steps of the page, the newest one first. -/
def candidates (state : ProjectState) (taskId : String) : List RunStepLogEntry :=
  ((recoveryPage host state taskId).filter (RunStepLogEntry.recovers taskId)).insertionSort
    (NewestFirst host RunStepLogEntry.createdAt)

theorem getLatestByTaskId_eq (state : ProjectState) (taskId : String) :
    getLatestByTaskId host state taskId =
      .ok ((candidates host state taskId).head?.bind RunStepLogEntry.checkpoint?) := by
  rw [getLatestByTaskId, listRunSteps_of_task]
  rfl

theorem recovers_iff {taskId : String} {step : RunStepLogEntry} :
    step.recovers taskId = true ↔ step.status ∈ recoveryStatuses ∧ step.taskId = some taskId := by
  simp [RunStepLogEntry.recovers]

theorem mem_candidates {state : ProjectState} {taskId : String} {step : RunStepLogEntry} :
    step ∈ candidates host state taskId ↔
      step ∈ recoveryPage host state taskId ∧ step.recovers taskId = true := by
  rw [candidates, List.mem_insertionSort, List.mem_filter]

theorem mem_log_of_mem_page {state : ProjectState} {taskId : String} {step : RunStepLogEntry}
    (h : step ∈ recoveryPage host state taskId) : step ∈ state.execution.runStepLog := by
  have hsorted := List.mem_of_mem_take h
  exact (List.mem_filter.mp ((List.mem_insertionSort _).mp hsorted)).1

/-- A candidate of an empty id makes no checkpoint. -/
theorem checkpoint_of_recovers {taskId : String} {step : RunStepLogEntry}
    (h : step.recovers taskId = true) :
    step.checkpoint? = if taskId = "" then none else some (step.checkpoint taskId) := by
  rw [RunStepLogEntry.checkpoint?, (recovers_iff.mp h).2]

/-- The checkpoint that is returned, by whether the page has a recovery step. -/
theorem getLatestByTaskId_of_ne {state : ProjectState} {taskId : String} (h : taskId ≠ "") :
    getLatestByTaskId host state taskId =
      .ok ((candidates host state taskId).head?.map fun step => step.checkpoint taskId) := by
  rw [getLatestByTaskId_eq]
  cases hcandidates : candidates host state taskId with
  | nil => rfl
  | cons step rest =>
    have hmem : step ∈ candidates host state taskId := by
      rw [hcandidates]
      exact List.mem_cons_self
    have hstep := checkpoint_of_recovers ((mem_candidates host).mp hmem).2
    rw [List.head?_cons, Option.bind_some, hstep, if_neg h]
    rfl

theorem getLatestByTaskId_empty (state : ProjectState) :
    getLatestByTaskId host state "" = .ok none := by
  rw [getLatestByTaskId_eq]
  cases hcandidates : candidates host state "" with
  | nil => rfl
  | cons step rest =>
    have hmem : step ∈ candidates host state "" := by
      rw [hcandidates]
      exact List.mem_cons_self
    have hstep := checkpoint_of_recovers ((mem_candidates host).mp hmem).2
    rw [List.head?_cons, Option.bind_some, hstep, if_pos rfl]

variable [Std.TransCmp host.localeCompare]

/-- No recovery step of the task is newer than the first candidate. -/
theorem newest_of_head {state : ProjectState} {taskId : String} {step : RunStepLogEntry}
    {rest : List RunStepLogEntry} (h : candidates host state taskId = step :: rest)
    {other : RunStepLogEntry} (hmem : other ∈ state.execution.runStepLog)
    (hother : other.recovers taskId = true) :
    OldestFirst host RunStepLogEntry.createdAt other step := by
  have hsorted := List.pairwise_insertionSort (NewestFirst host RunStepLogEntry.createdAt)
    (state.execution.runStepLog.filter fun step => taskId == "" || step.taskId == some taskId)
  have hstep : step ∈ recoveryPage host state taskId :=
    ((mem_candidates host).mp (by rw [h]; exact List.mem_cons_self)).1
  by_cases hpage : other ∈ recoveryPage host state taskId
  · have hcandidate : other ∈ candidates host state taskId := (mem_candidates host).mpr ⟨hpage, hother⟩
    have hsort : (candidates host state taskId).Pairwise (NewestFirst host RunStepLogEntry.createdAt) :=
      List.pairwise_insertionSort _ _
    rw [h] at hcandidate hsort
    rcases List.mem_cons.mp hcandidate with rfl | hrest
    · exact (Std.Total.total (r := OldestFirst host RunStepLogEntry.createdAt) _ _).elim id id
    · exact (List.pairwise_cons.mp hsort).1 other hrest
  · -- the other step is behind the page, and the page has the newest steps
    have hselected : other ∈ (state.execution.runStepLog.filter fun step =>
        taskId == "" || step.taskId == some taskId).insertionSort
          (NewestFirst host RunStepLogEntry.createdAt) := by
      refine (List.mem_insertionSort _).mpr (List.mem_filter.mpr ⟨hmem, ?_⟩)
      rw [(recovers_iff.mp hother).2]
      simp
    rw [← List.take_append_drop 200 (List.insertionSort _ _)] at hselected hsorted
    rcases List.mem_append.mp hselected with hshown | hhidden
    · exact absurd hshown hpage
    · exact (List.pairwise_append.mp hsorted).2.2 step hstep other hhidden

/-- The checkpoint is found where the task has no recovery step, or one on its page. -/
theorem recoveryFound_iff_shown {state : ProjectState} {taskId : String} :
    RecoveryFound host state taskId ↔
      (∀ step ∈ state.execution.runStepLog, step.recovers taskId = false) ∨
        taskId ≠ "" ∧ ∃ step ∈ recoveryPage host state taskId, step.recovers taskId = true := by
  by_cases htask : taskId = ""
  · subst htask
    unfold RecoveryFound
    rw [getLatestByTaskId_empty]
    constructor
    · rintro ⟨checkpoint, hok, hlatest⟩
      cases hok
      exact Or.inl hlatest
    · rintro (hnone | ⟨hne, -⟩)
      · exact ⟨none, rfl, hnone⟩
      · exact absurd rfl hne
  · unfold RecoveryFound
    rw [getLatestByTaskId_of_ne host htask]
    cases hcandidates : candidates host state taskId with
    | nil =>
      have hnone : ¬ ∃ step ∈ recoveryPage host state taskId, step.recovers taskId = true := by
        rintro ⟨step, hstep, hrecovers⟩
        have hmem := (mem_candidates host).mpr ⟨hstep, hrecovers⟩
        rw [hcandidates] at hmem
        exact List.not_mem_nil hmem
      constructor
      · rintro ⟨checkpoint, hok, hlatest⟩
        cases hok
        exact Or.inl hlatest
      · rintro (hlatest | ⟨-, hshown⟩)
        · exact ⟨none, rfl, hlatest⟩
        · exact absurd hshown hnone
    | cons step rest =>
      obtain ⟨hpage, hrecovers⟩ := (mem_candidates host).mp
        (show step ∈ candidates host state taskId by rw [hcandidates]; exact List.mem_cons_self)
      refine ⟨fun _ => Or.inr ⟨htask, step, hpage, hrecovers⟩, fun _ => ?_⟩
      exact ⟨some (step.checkpoint taskId), rfl, step, mem_log_of_mem_page host hpage, hrecovers, rfl,
        fun other hmem hother => newest_of_head host hcandidates hmem hother⟩

/-- **Recovery checkpoints**: `getLatestByTaskId` is right exactly if the log has no recovery step of
the task, or the task has a name and fewer than two hundred of its steps are listed before one of its
recovery steps, namely newer ones and earlier recorded ones of the same time. -/
theorem getLatestByTaskId_correct_iff (state : ProjectState) (taskId : String) :
    RecoveryFound host state taskId ↔
      (∀ step ∈ state.execution.runStepLog, step.recovers taskId = false) ∨
        taskId ≠ "" ∧ ∃ before step after,
          (state.execution.runStepLog.filter fun step => step.taskId == some taskId) =
              before ++ step :: after ∧
            step.status ∈ recoveryStatuses ∧
            Sorting.rank (NewestFirst host RunStepLogEntry.createdAt) before step after < 200 := by
  rw [recoveryFound_iff_shown]
  refine or_congr_right (and_congr_right fun htask => ?_)
  have hselects : (fun step : RunStepLogEntry => taskId == "" || step.taskId == some taskId) =
      fun step => step.taskId == some taskId := by
    funext step
    simp [htask]
  rw [recoveryPage, hselects, Sorting.exists_mem_take_iff]
  constructor
  · rintro ⟨before, step, after, hsplit, hrecovers, hrank⟩
    exact ⟨before, step, after, hsplit, (recovers_iff.mp hrecovers).1, hrank⟩
  · rintro ⟨before, step, after, hsplit, hstatus, hrank⟩
    have hmem : step ∈ state.execution.runStepLog.filter fun step => step.taskId == some taskId := by
      rw [hsplit]
      simp
    have hstep : step.taskId = some taskId := by simpa using (List.mem_filter.mp hmem).2
    exact ⟨before, step, after, hsplit, recovers_iff.mpr ⟨hstatus, hstep⟩, hrank⟩

/-! ### Logs -/

/-- A step of the task `T-1`. -/
def taskStep (status : RunStepStatus) (createdAt : String) : RunStepLogEntry where
  id := "evidence"
  tenantId := "default-org"
  projectId := "P-1"
  runId := "run"
  stepId := "step"
  attempt := 0
  taskId := some "T-1"
  role := "coder"
  tool := none
  input := ""
  output := ""
  status := status
  policyDecisionId := none
  idempotencyKey := "key"
  payloadRef := none
  checksum := ""
  prevChecksum := none
  traceId := "trace"
  durationMs := 0
  createdAt := createdAt

/-- A state with a log. -/
def loggedState (log : List RunStepLogEntry) : ProjectState :=
  let state := ProjectState.createEmpty (some "default-org") "P-1" "Parser" "A parser"
  { state with execution := { state.execution with runStepLog := log } }

/-- A step that failed and one that succeeded later. -/
theorem getLatestByTaskId_correct_iff_shown :
    RecoveryFound codePointHost (loggedState [taskStep .failed "2026-01-01T00:00:00.000Z",
      taskStep .succeeded "2026-01-02T00:00:00.000Z"]) "T-1" := by
  refine (getLatestByTaskId_correct_iff codePointHost _ "T-1").mpr (Or.inr ⟨by decide, ?_⟩)
  exact ⟨[], _, [taskStep .succeeded "2026-01-02T00:00:00.000Z"], rfl, by decide, by decide⟩

/-- **A hidden recovery step**: two hundred steps of the task succeeded after one failed. -/
theorem recovery_hidden :
    ¬ RecoveryFound codePointHost (loggedState (taskStep .failed "2026-01-01T00:00:00.000Z" ::
      List.replicate 200 (taskStep .succeeded "2026-01-02T00:00:00.000Z"))) "T-1" := by
  rw [recoveryFound_iff_shown]
  rintro (hnone | ⟨-, hshown⟩)
  · exact absurd (hnone _ List.mem_cons_self) (by decide)
  · obtain ⟨before, step, after, hsplit, hrecovers, hrank⟩ :=
      Sorting.exists_mem_take_iff.mp hshown
    have hall : ∀ entry ∈ taskStep .failed "2026-01-01T00:00:00.000Z" ::
        List.replicate 200 (taskStep .succeeded "2026-01-02T00:00:00.000Z"),
          ("T-1" == "" || entry.taskId == some "T-1") = true := by
      intro entry hentry
      rcases List.mem_cons.mp hentry with rfl | hentry
      · rfl
      · rw [List.eq_of_mem_replicate hentry]
        rfl
    have hlog : taskStep .failed "2026-01-01T00:00:00.000Z" ::
        List.replicate 200 (taskStep .succeeded "2026-01-02T00:00:00.000Z") =
          before ++ step :: after := (List.filter_eq_self.mpr hall).symm.trans hsplit
    cases before with
    | nil =>
      obtain ⟨rfl, rfl⟩ := List.cons.inj hlog
      have hnewer : Sorting.rank (NewestFirst codePointHost RunStepLogEntry.createdAt) []
          (taskStep .failed "2026-01-01T00:00:00.000Z")
          (List.replicate 200 (taskStep .succeeded "2026-01-02T00:00:00.000Z")) = 200 := by
        rw [Sorting.rank, List.countP_replicate]
        decide
      omega
    | cons first before =>
      have hmem : step ∈ List.replicate 200 (taskStep .succeeded "2026-01-02T00:00:00.000Z") := by
        rw [(List.cons.inj hlog).2]
        simp
      rw [List.eq_of_mem_replicate hmem] at hrecovers
      exact absurd hrecovers (by decide)

end AiOrchestrator
