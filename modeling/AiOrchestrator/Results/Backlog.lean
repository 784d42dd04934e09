import AiOrchestrator.Workflow.Dependencies

/-!
# Bookkeeping and dependencies over whole runs

The two results about the backlog: whatever sequence of outcomes a state goes through,
its five collections agree (`bookkeeping_of_outcomes`), and however often tasks are split,
the dependency graph stays acyclic and some task can be selected
(`dependencies_of_outcomes`).
-/

namespace AiOrchestrator

namespace ProjectState

/-! ### A small project -/

/-- A feature of the given tasks. -/
def sampleFeature (tasks : List (String × BacklogTask)) : Feature where
  id := "F-1"
  epicId := "E-1"
  title := "Grammar"
  outcome := "Inputs are read"
  risks := []
  taskIds := tasks.map Prod.fst

/-- A backlog of one epic with that one feature. -/
def sampleBacklog (tasks : List (String × BacklogTask)) : Backlog where
  epics := Dict.ofList [("E-1",
    { id := "E-1", title := "Parser", goal := "Read the input", status := .todo
      featureIds := ["F-1"] })]
  features := Dict.ofList [("F-1", sampleFeature tasks)]
  tasks := Dict.ofList tasks

/-- A todo task of that feature. -/
def sampleTask (id : String) (dependsOn acceptanceCriteria : List String) : BacklogTask where
  id := id
  featureId := "F-1"
  splitFromTaskId := none
  title := "Read the grammar"
  kind := .implementation
  status := .todo
  priority := .p1
  dependsOn := dependsOn
  acceptanceCriteria := acceptanceCriteria
  affectedModules := ["parser"]
  estimatedRisk := .low

/-- A project with the given tasks and nothing done. -/
def sampleState (tasks : List (String × BacklogTask)) : ProjectState :=
  { createEmpty none "P-1" "Parser" "A parser" with backlog := sampleBacklog tasks }

/-! ### Bookkeeping -/

/-- **The bookkeeping of a state agrees**: statuses, lists, children and failures. -/
structure Bookkeeping (state : ProjectState) : Prop where
  done_iff : ∀ key task, state.backlog.tasks.get? key = some task →
    (task.status = .done ↔ task.id ∈ state.execution.completedTaskIds)
  blocked_iff : ∀ key task, state.backlog.tasks.get? key = some task →
    (task.status = .blocked ↔ task.id ∈ state.execution.blockedTaskIds)
  completed_nodup : state.execution.completedTaskIds.Nodup
  blocked_nodup : state.execution.blockedTaskIds.Nodup
  superseded : ∀ key task, state.backlog.tasks.get? key = some task → task.status = .superseded →
    task.id ∉ state.execution.completedTaskIds ∧ task.id ∉ state.execution.blockedTaskIds ∧
      state.childCount task.id = 2
  child_whole : ∀ key task, state.backlog.tasks.get? key = some task →
    task.splitFromTaskId ≠ none → task.status ≠ .superseded ∧ state.childCount task.id = 0
  retry_eq : ∀ taskId, state.retryCount taskId = state.failureCount taskId
  /-- That number is what the lookup of a task's count finds. -/
  retry_counted : ∀ key task, state.backlog.tasks.get? key = some task → state.RetryCounted task.id

/-- **An initial state of the bookkeeping**: accepted and consistent, entities stored under
their own ids, children only of superseded tasks, and no id that looks like a split
child's. -/
structure Initial (state : ProjectState) : Prop where
  accepted : validateProjectState state = []
  bookkeeping : state.Bookkeeping
  keys : ∀ key task, state.backlog.tasks.get? key = some task → task.id = key
  featureKeys : ∀ key feature, state.backlog.features.get? key = some feature → feature.id = key
  parent : ∀ key task, state.backlog.tasks.get? key = some task → state.childCount key ≠ 0 →
    task.status = .superseded
  whole : ∀ key, key ∈ state.backlog.tasks.keys → endsInSplitSuffix key = false

variable {state state' : ProjectState}

theorem Initial.consistent (h : state.Initial) : state.Consistent := by
  have hvalid := validateProjectState_eq_nil_iff.mp h.accepted
  refine
    { keys := h.keys, featureKeys := h.featureKeys, done_iff := ?_, blocked_iff := ?_
      completed_nodup := h.bookkeeping.completed_nodup
      blocked_nodup := h.bookkeeping.blocked_nodup, retry_eq := h.bookkeeping.retry_eq
      retry_counted := ?_, split_stored := ?_, superseded_children := ?_, parent := ?_, child_whole := ?_
      suffix := ?_ }
  · intro id
    constructor
    · exact hvalid.completedRefs id
    · rintro ⟨task, hget, hdone⟩
      rw [← h.keys id task hget]
      exact (h.bookkeeping.done_iff id task hget).mp hdone
  · intro id
    constructor
    · intro hid
      obtain ⟨task, hget, hblocked, -⟩ := hvalid.blockedRefs id hid
      exact ⟨task, hget, hblocked⟩
    · rintro ⟨task, hget, hblocked⟩
      rw [← h.keys id task hget]
      exact (h.bookkeeping.blocked_iff id task hget).mp hblocked
  · intro key hkey
    obtain ⟨task, hget⟩ := Dict.exists_get?_iff.mpr hkey
    rw [← h.keys key task hget]
    exact h.bookkeeping.retry_counted key task hget
  · intro key task hget parent hparent
    have hmem := Dict.mem_values_of_get? hget
    exact (hvalid.taskRefs task hmem).2.1 parent hparent
      ((hvalid.schema.tasks task hmem).2.2.1 parent hparent)
  · intro key task hget hs
    rw [← h.keys key task hget]
    exact (h.bookkeeping.superseded key task hget hs).2.2
  · intro key task hget hne
    exact Or.inl (h.parent key task hget hne)
  · intro key task hget hsplit
    rw [← h.keys key task hget]
    exact h.bookkeeping.child_whole key task hget hsplit
  · intro key task hget hsuffix
    rw [h.whole key (Dict.mem_keys_of_get? hget)] at hsuffix
    cases hsuffix

theorem Consistent.bookkeeping (h : state.Consistent) : state.Bookkeeping where
  done_iff key task hget := by rw [h.keys key task hget, h.done_iff, hasStatus_iff hget]
  blocked_iff key task hget := by rw [h.keys key task hget, h.blocked_iff, hasStatus_iff hget]
  completed_nodup := h.completed_nodup
  blocked_nodup := h.blocked_nodup
  superseded key task hget hs := by
    rw [h.keys key task hget, h.done_iff, h.blocked_iff, hasStatus_iff hget, hasStatus_iff hget, hs]
    exact ⟨by decide, by decide, h.superseded_children key task hget hs⟩
  child_whole key task hget hsplit := by
    rw [h.keys key task hget]
    exact h.child_whole key task hget hsplit
  retry_eq := h.retry_eq
  retry_counted key task hget := by
    rw [h.keys key task hget]
    exact h.retry_counted key (Dict.mem_keys_of_get? hget)

/-- A project of one task. -/
def oneTask : ProjectState := sampleState [("T-1", sampleTask "T-1" [] ["The grammar is read"])]

/-- That task, as a run holds it. -/
def oneTaskHandle : TaskHandle := ⟨sampleTask "T-1" [] ["The grammar is read"], "T-1"⟩

/-- The one task of `oneTask`. -/
theorem oneTask_get? {key : String} {task : BacklogTask}
    (h : oneTask.backlog.tasks.get? key = some task) :
    key = "T-1" ∧ task = sampleTask "T-1" [] ["The grammar is read"] := by
  have hmem : (key, task) ∈ [("T-1", sampleTask "T-1" [] ["The grammar is read"])] :=
    Dict.get?_eq_some_iff.mp h
  simpa using hmem

/-- An update that records nothing on the side. -/
theorem Recorded.refl (h : state.RecordsOk) : state.Recorded state :=
  ⟨⟨rfl, rfl, rfl, rfl, rfl⟩, ⟨rfl, rfl, rfl, rfl, rfl, rfl⟩, fun _ => id, h⟩

theorem oneTask_initial : oneTask.Initial := by
  have hvalid : validateProjectState oneTask = [] := by decide
  have hchildren : ∀ key, oneTask.childCount key = 0 := by
    intro key
    refine List.countP_eq_zero.mpr fun task hmem => ?_
    obtain ⟨j, hj⟩ := Dict.mem_values_iff.mp hmem
    obtain ⟨-, rfl⟩ := oneTask_get? hj
    simp [sampleTask]
  refine
    ⟨hvalid, ⟨?_, ?_, List.nodup_nil, List.nodup_nil, ?_, ?_, fun _ => rfl, ?_⟩, ?_, ?_, ?_, ?_⟩
  · intro key task hget
    obtain ⟨-, rfl⟩ := oneTask_get? hget
    exact iff_of_false (by decide) List.not_mem_nil
  · intro key task hget
    obtain ⟨-, rfl⟩ := oneTask_get? hget
    exact iff_of_false (by decide) List.not_mem_nil
  · intro key task hget hs
    obtain ⟨-, rfl⟩ := oneTask_get? hget
    cases hs
  · intro key task hget hsplit
    obtain ⟨-, rfl⟩ := oneTask_get? hget
    exact absurd rfl hsplit
  · intro key task hget
    obtain ⟨-, rfl⟩ := oneTask_get? hget
    exact fun hinherited => absurd hinherited (by decide)
  · intro key task hget
    obtain ⟨rfl, rfl⟩ := oneTask_get? hget
    rfl
  · intro key feature hget
    have hmem : (key, feature) ∈ [("F-1", sampleFeature [("T-1", oneTaskHandle.task)])] :=
      Dict.get?_eq_some_iff.mp hget
    obtain ⟨rfl, rfl⟩ := Prod.mk.inj (List.mem_singleton.mp hmem)
    rfl
  · intro key task _ hne
    exact absurd (hchildren key) hne
  · intro key hkey
    obtain ⟨task, hget⟩ := Dict.exists_get?_iff.mpr hkey
    obtain ⟨rfl, -⟩ := oneTask_get? hget
    decide

/-- A state without records but its failures. -/
theorem recordsOk_of_failures (hdecisions : state.decisions = []) (hartifacts : state.artifacts = [])
    (happrovals : state.approvals = []) (hpolicy : state.policyDecisions = [])
    (hrun : state.execution.activeRunId = none) (htask : state.execution.activeTaskId = none)
    (hsteps : state.execution.runStepLog = []) (hdedup : state.execution.dedupRegistry = ∅)
    (hfailures : ∀ failure ∈ state.failures, failureSchema "" failure = []) : state.RecordsOk where
  decisions decision hmem := by
    rw [hdecisions] at hmem
    cases hmem
  failures failure hmem := (decides_failureSchema "" failure).mp (hfailures failure hmem)
  artifacts artifact hmem := by
    rw [hartifacts] at hmem
    cases hmem
  approvals request hmem := by
    rw [happrovals] at hmem
    cases hmem
  policyDecisions decision hmem := by
    rw [hpolicy] at hmem
    cases hmem
  activeRun id hid := by
    rw [hrun] at hid
    cases hid
  activeTask id hid := by
    rw [htask] at hid
    cases hid
  runSteps step hmem := by
    rw [hsteps] at hmem
    cases hmem
  dedup entry hmem := by
    rw [hdedup] at hmem
    cases hmem

/-! A task that fails twice, is split, and whose first part is blocked and resumed. -/

/-- A failure of a task. -/
def sampleFailure (id taskId : String) (status : FailureStatus) : FailureRecord where
  id := id
  taskId := taskId
  role := .reviewer
  reason := "review_rejected"
  symptoms := []
  badPatterns := []
  retrySuggested := status = .retryable
  status := some status
  checkpointRunId := none
  checkpointStepId := none
  deadLetteredAt := if status = .deadLettered then some "2026-01-01T00:00:00.000Z" else none
  resumedAt := none
  replayedAt := none
  createdAt := "2026-01-01T00:00:00.000Z"

/-- `oneTask` after two failures. -/
def failedTwice : ProjectState :=
  (oneTask.countFailure (sampleFailure "failure-1" "T-1" .retryable)).countFailure
    (sampleFailure "failure-2" "T-1" .retryable)

/-- And after the split that followed. -/
def splitInTwo : ProjectState :=
  failedTwice.splitTask oneTaskHandle (splitTaskForRetry oneTaskHandle.task "review_rejected")

/-- The first part, as a run holds it. -/
def firstPart : TaskHandle :=
  ⟨(splitTaskForRetry oneTaskHandle.task "review_rejected").firstChild, "T-1--part-1"⟩

/-- And after the first part failed and was blocked. -/
def partBlocked : ProjectState :=
  (splitInTwo.countFailure (sampleFailure "failure-3" "T-1--part-1" .deadLettered)).blockTask
    firstPart

/-- The outcomes in a row, up to the resumption of the part's failure. -/
theorem resumed_run : ∃ resumed failure,
    partBlocked.resumeFailure "failure-3" "2026-01-02T00:00:00.000Z" = .ok (resumed, failure) ∧
      failure.taskId = "T-1--part-1" ∧ resumed.HasStatus "T-1--part-1" .todo ∧
      Outcomes (fun _ => True) oneTask resumed := by
  have hrecords₁ : (oneTask.countFailure (sampleFailure "failure-1" "T-1" .retryable)).RecordsOk :=
    recordsOk_of_failures rfl rfl rfl rfl rfl rfl rfl rfl (by decide)
  have hrecords₂ : failedTwice.RecordsOk :=
    recordsOk_of_failures rfl rfl rfl rfl rfl rfl rfl rfl (by decide)
  have hrecords₃ : splitInTwo.RecordsOk :=
    recordsOk_of_failures rfl rfl rfl rfl rfl rfl rfl rfl (by decide)
  have hrecords₄ : (splitInTwo.countFailure
      (sampleFailure "failure-3" "T-1--part-1" .deadLettered)).RecordsOk :=
    recordsOk_of_failures rfl rfl rfl rfl rfl rfl rfl rfl (by decide)
  have hrecords₅ : partBlocked.RecordsOk :=
    recordsOk_of_failures rfl rfl rfl rfl rfl rfl rfl rfl (by decide)
  have hown : failedTwice.OwnTodo oneTaskHandle := ⟨rfl, rfl, rfl⟩
  have hsplit : Outcome .split failedTwice splitInTwo :=
    .split "review_rejected" hown rfl (Recorded.refl hrecords₃)
  have hpart : (splitInTwo.countFailure
      (sampleFailure "failure-3" "T-1--part-1" .deadLettered)).OwnTodo firstPart := ⟨rfl, rfl, rfl⟩
  have hblock : Outcome .blocked (splitInTwo.countFailure
      (sampleFailure "failure-3" "T-1--part-1" .deadLettered)) partBlocked :=
    .blocked hpart (by decide) (Recorded.refl hrecords₅)
  have hblocked : Outcomes (fun _ => True) oneTask partBlocked :=
    ((((Relation.ReflTransGen.refl.tail
      ⟨.failed, trivial, .failed _ (Recorded.refl hrecords₁)⟩).tail
      ⟨.failed, trivial, .failed _ (Recorded.refl hrecords₂)⟩).tail ⟨.split, trivial, hsplit⟩).tail
      ⟨.failed, trivial, .failed _ (Recorded.refl hrecords₄)⟩).tail ⟨.blocked, trivial, hblock⟩
  refine ⟨_, _, rfl, rfl, ⟨_, rfl, rfl⟩, hblocked.tail ⟨.resumed, trivial, ?_⟩⟩
  refine @Outcome.resumed _ _ _ "failure-3" "2026-01-02T00:00:00.000Z" _ rfl (Recorded.refl ?_)
  exact recordsOk_of_failures rfl rfl rfl rfl rfl rfl rfl rfl (by decide)

/-- **Splits keep the dependency graph and progress**: in every state that runs reach from a
fresh backlog the graph is acyclic and closed, only superseded tasks depend on superseded
ones, the two children of a superseded task hold its criteria (each once, and the two
standard criteria besides when it had at most one), and while some open task has nothing
blocked below it, some task can be selected. -/
theorem dependencies_of_outcomes (h : state.Fresh)
    (hrun : Outcomes OutcomeKind.OfRun state state') :
    DepGraph.Acyclic state'.DependsOn ∧
    (∀ a b, state'.DependsOn a b → b ∈ state'.backlog.tasks.keys) ∧
    (∀ a b, state'.DependsOn a b → ¬ state'.HasStatus a .superseded →
      ¬ state'.HasStatus b .superseded) ∧
    (∀ key task, state'.backlog.tasks.get? key = some task → task.status = .superseded →
      ∃ first second, state'.backlog.tasks.get? (firstChildId key) = some first ∧
        state'.backlog.tasks.get? (secondChildId key) = some second ∧
        first.splitFromTaskId = some key ∧ second.splitFromTaskId = some key ∧
        ∀ text, first.acceptanceCriteria.count text + second.acceptanceCriteria.count text =
          task.acceptanceCriteria.count text +
            if task.acceptanceCriteria.length ≤ 1 then
              [narrowCriterion, integrationCriterion].count text
            else 0) ∧
    (∀ host key task, state'.backlog.tasks.get? key = some task → task.status ≠ .done →
      task.status ≠ .superseded →
      (∀ d, Relation.ReflTransGen state'.DependsOn key d → ¬ state'.HasStatus d .blocked) →
      (selectNextTask host state').isSome) := by
  have hgrown := hrun.grown h.grown
  refine ⟨?_, hgrown.closed, hgrown.live, ?_, ?_⟩
  · obtain ⟨rank, hrank⟩ := hgrown.ranked
    exact hrank.acyclic
  · intro key task hget hs
    obtain ⟨first, second, hfirst, hsecond, hfrom₁, hfrom₂, hcriteria₁, hcriteria₂⟩ :=
      hgrown.criteria key task hget hs
    refine ⟨first, second, hfirst, hsecond, hfrom₁, hfrom₂, fun text => ?_⟩
    rw [hcriteria₁, hcriteria₂]
    exact count_splitAcceptanceCriteria task.acceptanceCriteria text
  · intro host key task hget hdone hs hfree
    exact hgrown.selectNextTask_isSome host hget hdone hs hfree

/-- Two tasks, the second of which depends on the first. -/
def chain (criterion : String) : ProjectState :=
  sampleState [("T-1", sampleTask "T-1" [] [criterion]), ("T-2", sampleTask "T-2" ["T-1"] ["reads"])]

/-- The first of them, as a run holds it. -/
def chainHandle (criterion : String) : TaskHandle := ⟨sampleTask "T-1" [] [criterion], "T-1"⟩

/-- `chain` after its first task was split. -/
def chainSplit (criterion : String) : ProjectState :=
  (chain criterion).splitTask (chainHandle criterion)
    (splitTaskForRetry (chainHandle criterion).task "review_rejected")

theorem chain_get? {criterion key : String} {task : BacklogTask}
    (h : (chain criterion).backlog.tasks.get? key = some task) :
    (key = "T-1" ∧ task = sampleTask "T-1" [] [criterion]) ∨
      (key = "T-2" ∧ task = sampleTask "T-2" ["T-1"] ["reads"]) := by
  have hmem : (key, task) ∈
      [("T-1", sampleTask "T-1" [] [criterion]), ("T-2", sampleTask "T-2" ["T-1"] ["reads"])] :=
    Dict.get?_eq_some_iff.mp h
  simpa using hmem

theorem chain_fresh {criterion : String} (haccepted : validateProjectState (chain criterion) = []) :
    (chain criterion).Fresh := by
  refine ⟨haccepted, ?_, ?_, ?_, ?_, ?_⟩
  · intro task hmem dependency hdep _
    obtain ⟨key, hget⟩ := Dict.mem_values_iff.mp hmem
    rcases chain_get? hget with ⟨-, rfl⟩ | ⟨-, rfl⟩
    · cases hdep
    · rw [List.mem_singleton.mp hdep]
      exact List.mem_cons_self
  · intro key task hget
    rcases chain_get? hget with ⟨-, rfl⟩ | ⟨-, rfl⟩ <;> rfl
  · intro key task hget
    rcases chain_get? hget with ⟨rfl, rfl⟩ | ⟨rfl, rfl⟩ <;> rfl
  · intro key hkey
    obtain ⟨task, hget⟩ := Dict.exists_get?_iff.mpr hkey
    rcases chain_get? hget with ⟨rfl, -⟩ | ⟨rfl, -⟩ <;> decide
  · have hranked : DepGraph.Ranked (chain criterion).DependsOn
        fun key => if key = "T-2" then 1 else 0 := by
      rintro a b ⟨task, hget, hb⟩
      rcases chain_get? hget with ⟨rfl, rfl⟩ | ⟨rfl, rfl⟩
      · cases hb
      · rw [List.mem_singleton.mp hb]
        decide
    exact hranked.acyclic

theorem chain_run {criterion : String} (hsplit : validateProjectState (chainSplit criterion) = []) :
    Outcomes OutcomeKind.OfRun (chain criterion) (chainSplit criterion) := by
  have hown : (chain criterion).OwnTodo (chainHandle criterion) := ⟨rfl, rfl, rfl⟩
  exact Relation.ReflTransGen.single ⟨.split, trivial, .split "review_rejected" hown rfl
    (Recorded.refl (validateProjectState_eq_nil_iff.mp hsplit).recordsOk)⟩

theorem dependencies_of_outcomes_split :
    DepGraph.Acyclic (chainSplit "The grammar is read").DependsOn :=
  (dependencies_of_outcomes (chain_fresh (by decide)) (chain_run (by decide +kernel))).1

/-- Three tasks, the first two of which are stored under each other's ids. -/
def swapped : ProjectState :=
  sampleState [("A", { sampleTask "B" [] ["reads"] with priority := .p0 }),
    ("B", sampleTask "A" [] ["reads"]), ("C", sampleTask "C" ["A"] ["reads"])]

/-- `swapped` after the task the selector picks was split. -/
def swappedSplit : ProjectState :=
  swapped.splitTask ⟨{ sampleTask "B" [] ["reads"] with priority := .p0 }, "A"⟩
    (splitTaskForRetry { sampleTask "B" [] ["reads"] with priority := .p0 } "review_rejected")

/-- A task that depends on a member which every object inherits. -/
def inheritedDependency : ProjectState :=
  sampleState [("T-1", sampleTask "T-1" ["constructor"] ["reads"])]

/-- Three ways in which less is kept than one might ask. A sole criterion that happens to be the
standard one stands in both children. Where tasks are not stored under their ids, an open task goes
on depending on a superseded one in a state that is accepted. And a dependency on a member that
every object inherits is accepted, although there is no such task, and keeps its task from ever
being selected. -/
theorem split_keeps_less :
    ((chain narrowCriterion).Fresh ∧
      Outcomes OutcomeKind.OfRun (chain narrowCriterion) (chainSplit narrowCriterion) ∧
      (chainSplit narrowCriterion).HasStatus "T-1" .superseded ∧
      ∃ first second,
        (chainSplit narrowCriterion).backlog.tasks.get? "T-1--part-1" = some first ∧
        (chainSplit narrowCriterion).backlog.tasks.get? "T-1--part-2" = some second ∧
        narrowCriterion ∈ first.acceptanceCriteria ∧ narrowCriterion ∈ second.acceptanceCriteria) ∧
    (validateProjectState swapped = [] ∧
      selectNextEntry ⟨id, fun _ _ => .eq, fun _ => "", fun _ _ => 0⟩ swapped =
        some ("A", { sampleTask "B" [] ["reads"] with priority := .p0 }) ∧
      validateProjectState swappedSplit = [] ∧ swappedSplit.DependsOn "C" "A" ∧
      swappedSplit.HasStatus "C" .todo ∧ swappedSplit.HasStatus "A" .superseded) ∧
    (validateProjectState inheritedDependency = [] ∧
      inheritedDependency.DependsOn "T-1" "constructor" ∧
      "constructor" ∉ inheritedDependency.backlog.tasks.keys ∧
      selectNextEntry ⟨id, fun _ _ => .eq, fun _ => "", fun _ _ => 0⟩ inheritedDependency =
        none) := by
  refine ⟨⟨chain_fresh (by decide), chain_run (by decide +kernel), ⟨_, rfl, rfl⟩,
    _, _, rfl, rfl, ?_, ?_⟩, ⟨?_, ?_, ?_, ⟨_, rfl, ?_⟩, ⟨_, rfl, rfl⟩, ⟨_, rfl, rfl⟩⟩,
    ?_, ⟨_, rfl, ?_⟩, ?_, ?_⟩
  all_goals decide

end ProjectState

end AiOrchestrator
