import AiOrchestrator.Lib.DepGraph
import AiOrchestrator.Workflow.Outcomes

/-!
# Splits and the dependency graph

Each split rewrites the dependencies of all other tasks and adds two tasks to the graph.
`Grown` is the invariant of a backlog that started all todo and grew by splits: the graph
is ranked, dependencies exist, and the children of every superseded task stand in the
backlog with its criteria. The ranks come from `DepGraph.SplitOf.ranked`; that some task
can be selected (`Grown.selectNextTask_isSome`) is a minimal-element argument on them.
-/

namespace AiOrchestrator

namespace ProjectState

/-- The dependency graph of a backlog: task `a` depends on task `b`. -/
def DependsOn (state : ProjectState) (a b : String) : Prop :=
  ∃ task, state.backlog.tasks.get? a = some task ∧ b ∈ task.dependsOn

/-- The two children of a superseded task share its criteria. -/
def SharesCriteria (state : ProjectState) (key : String) (task : BacklogTask) : Prop :=
  ∃ first second, state.backlog.tasks.get? (firstChildId key) = some first ∧
    state.backlog.tasks.get? (secondChildId key) = some second ∧
    first.splitFromTaskId = some key ∧ second.splitFromTaskId = some key ∧
    first.acceptanceCriteria = (splitAcceptanceCriteria task.acceptanceCriteria).1 ∧
    second.acceptanceCriteria = (splitAcceptanceCriteria task.acceptanceCriteria).2

/-- **A backlog grown from todo tasks by splits.** -/
structure Grown (state : ProjectState) : Prop where
  /-- Every task is stored under its own id. -/
  keys : ∀ key task, state.backlog.tasks.get? key = some task → task.id = key
  done_iff : ∀ id, id ∈ state.execution.completedTaskIds ↔ state.HasStatus id .done
  blocked_iff : ∀ id, id ∈ state.execution.blockedTaskIds ↔ state.HasStatus id .blocked
  /-- A task is todo, done, blocked or superseded. -/
  settled : ∀ key task, state.backlog.tasks.get? key = some task →
    task.status = .todo ∨ task.status = .done ∨ task.status = .blocked ∨ task.status = .superseded
  checked : ∀ key task, state.backlog.tasks.get? key = some task → validateBacklogTask task = []
  /-- An id with a split suffix belongs to a child of a superseded task. -/
  suffix : ∀ key, key ∈ state.backlog.tasks.keys → endsInSplitSuffix key = true →
    ∃ parent, state.HasStatus parent .superseded ∧
      (key = firstChildId parent ∨ key = secondChildId parent)
  criteria : ∀ key task, state.backlog.tasks.get? key = some task → task.status = .superseded →
    state.SharesCriteria key task
  /-- Every dependency exists. -/
  closed : ∀ a b, state.DependsOn a b → b ∈ state.backlog.tasks.keys
  /-- Only superseded tasks depend on superseded tasks. -/
  live : ∀ a b, state.DependsOn a b → ¬ state.HasStatus a .superseded →
    ¬ state.HasStatus b .superseded
  ranked : ∃ rank, DepGraph.Ranked state.DependsOn rank

variable {state state' : ProjectState}

/-- A property of the backlog and the two lists survives records on the side. -/
theorem Grown.of_eq (h : state.Grown) (hbacklog : state'.backlog = state.backlog)
    (hcompleted : state'.execution.completedTaskIds = state.execution.completedTaskIds)
    (hblocked : state'.execution.blockedTaskIds = state.execution.blockedTaskIds) :
    state'.Grown := by
  have hhas : ∀ j σ, state'.HasStatus j σ = state.HasStatus j σ := by
    intro j σ
    rw [HasStatus, hbacklog, HasStatus]
  have hshares : ∀ j t, state'.SharesCriteria j t = state.SharesCriteria j t := by
    intro j t
    rw [SharesCriteria, hbacklog, SharesCriteria]
  have hdepends : state'.DependsOn = state.DependsOn := by
    funext a b
    rw [DependsOn, hbacklog, DependsOn]
  obtain ⟨h₁, h₂, h₃, h₄, h₅, h₆, h₇, h₈, h₉, h₁₀⟩ := h
  refine ⟨?_, ?_, ?_, ?_, ?_, ?_, ?_, ?_, ?_, ?_⟩ <;>
    simpa only [hhas, hshares, hdepends, hbacklog, hcompleted, hblocked]

/-! ### Status changes -/

/-- The shared criteria survive every change that keeps the criteria of stored tasks. -/
theorem SharesCriteria.mono {key : String} {task : BacklogTask} (h : state.SharesCriteria key task)
    (hkept : ∀ j t, state.backlog.tasks.get? j = some t → ∃ t',
      state'.backlog.tasks.get? j = some t' ∧ t'.splitFromTaskId = t.splitFromTaskId ∧
        t'.acceptanceCriteria = t.acceptanceCriteria)
    {task' : BacklogTask} (htask : task'.acceptanceCriteria = task.acceptanceCriteria) :
    state'.SharesCriteria key task' := by
  obtain ⟨first, second, hfirst, hsecond, hfrom₁, hfrom₂, hcriteria₁, hcriteria₂⟩ := h
  obtain ⟨first', hfirst', hfrom₁', heq₁⟩ := hkept _ _ hfirst
  obtain ⟨second', hsecond', hfrom₂', heq₂⟩ := hkept _ _ hsecond
  refine ⟨first', second', hfirst', hsecond', hfrom₁'.trans hfrom₁, hfrom₂'.trans hfrom₂, ?_, ?_⟩
  · rw [heq₁, hcriteria₁, htask]
  · rw [heq₂, hcriteria₂, htask]

/-- A todo task that is completed or blocked leaves the backlog grown. -/
theorem Grown.of_restatused (h : state.Grown) {key : String} {task : BacklogTask}
    {status : BacklogTaskStatus} (hrestatused : state.Restatused state' key task status)
    (hold : task.status = .todo) (hnew : status = .done ∨ status = .blocked) : state'.Grown := by
  have hget := hrestatused.stored
  have hsuperseded : ∀ j, state'.HasStatus j .superseded ↔ state.HasStatus j .superseded := by
    intro j
    rw [hrestatused.hasStatus j]
    split
    · next hj =>
      rw [hj, hasStatus_iff hget, hold]
      exact iff_of_false (by rcases hnew with rfl | rfl <;> decide) (by decide)
    · rfl
  have hedge : ∀ a b, state'.DependsOn a b → state.DependsOn a b := by
    rintro a b ⟨t, ht, hb⟩
    rcases hrestatused.cases ht with ⟨rfl, rfl⟩ | ⟨-, ht⟩
    · exact ⟨task, hget, hb⟩
    · exact ⟨t, ht, hb⟩
  have hkept : ∀ j t, state.backlog.tasks.get? j = some t → ∃ t',
      state'.backlog.tasks.get? j = some t' ∧ t'.splitFromTaskId = t.splitFromTaskId ∧
        t'.acceptanceCriteria = t.acceptanceCriteria := by
    intro j t ht
    rw [hrestatused.get? j]
    split
    · next hj =>
      rw [hj, hget] at ht
      cases ht
      exact ⟨_, rfl, rfl, rfl⟩
    · exact ⟨t, ht, rfl, rfl⟩
  refine
    { keys := ?_, done_iff := hrestatused.done_iff h.done_iff
      blocked_iff := hrestatused.blocked_iff h.blocked_iff, settled := ?_, checked := ?_
      suffix := ?_, criteria := ?_, closed := ?_, live := ?_, ranked := ?_ }
  · intro j t ht
    rcases hrestatused.cases ht with ⟨rfl, rfl⟩ | ⟨-, ht⟩
    · exact h.keys _ task hget
    · exact h.keys j t ht
  · intro j t ht
    rcases hrestatused.cases ht with ⟨rfl, rfl⟩ | ⟨-, ht⟩
    · rcases hnew with rfl | rfl
      · exact Or.inr (Or.inl rfl)
      · exact Or.inr (Or.inr (Or.inl rfl))
    · exact h.settled j t ht
  · intro j t ht
    rcases hrestatused.cases ht with ⟨rfl, rfl⟩ | ⟨-, ht⟩
    · exact h.checked _ task hget
    · exact h.checked j t ht
  · intro j hj hsuffix
    rw [hrestatused.keys] at hj
    obtain ⟨parent, hparent, hid⟩ := h.suffix j hj hsuffix
    exact ⟨parent, (hsuperseded parent).mpr hparent, hid⟩
  · intro j t ht hs
    rcases hrestatused.cases ht with ⟨rfl, rfl⟩ | ⟨-, ht⟩
    · rcases hnew with rfl | rfl <;> cases hs
    · exact (h.criteria j t ht hs).mono hkept rfl
  · intro a b hab
    rw [hrestatused.keys]
    exact h.closed a b (hedge a b hab)
  · intro a b hab ha
    rw [hsuperseded] at ha ⊢
    exact h.live a b (hedge a b hab) ha
  · obtain ⟨rank, hrank⟩ := h.ranked
    exact ⟨rank, fun a b hab => hrank a b (hedge a b hab)⟩

/-! ### Splits -/

/-- The ids of the children of a todo task are not in use. -/
theorem Grown.childIds_free (h : state.Grown) {key : String} {task : BacklogTask}
    (hget : state.backlog.tasks.get? key = some task) (htodo : task.status = .todo) :
    firstChildId key ∉ state.backlog.tasks.keys ∧ secondChildId key ∉ state.backlog.tasks.keys := by
  have hnot : ¬ state.HasStatus key .superseded := by
    rw [hasStatus_iff hget, htodo]
    decide
  constructor
  · intro hmem
    obtain ⟨parent, hparent, heq | heq⟩ := h.suffix _ hmem (by simp)
    · rw [← firstChildId_injective heq] at hparent
      exact hnot hparent
    · exact firstChildId_ne_secondChildId _ _ heq
  · intro hmem
    obtain ⟨parent, hparent, heq | heq⟩ := h.suffix _ hmem (by simp)
    · exact firstChildId_ne_secondChildId _ _ heq.symm
    · rw [← secondChildId_injective heq] at hparent
      exact hnot hparent

/-- **A split splits a vertex of the dependency graph.** -/
theorem splitOf_splitTask {task : BacklogTask} (reason : String)
    (hstored : state.backlog.tasks.get? task.id = some task)
    (hfree₁ : firstChildId task.id ∉ state.backlog.tasks.keys)
    (hfree₂ : secondChildId task.id ∉ state.backlog.tasks.keys)
    (hclosed : ∀ a b, state.DependsOn a b → b ∈ state.backlog.tasks.keys) :
    DepGraph.SplitOf state.DependsOn
      (state.splitTask ⟨task, task.id⟩ (splitTaskForRetry task reason)).DependsOn task.id
      (firstChildId task.id) (secondChildId task.id) := by
  have hsource : ∀ {a b}, state.DependsOn a b → a ∈ state.backlog.tasks.keys := by
    rintro a b ⟨t, ht, -⟩
    exact Dict.mem_keys_of_get? ht
  refine ⟨?_, fun a => ⟨fun h => hfree₁ (hclosed _ _ h), fun h => hfree₁ (hsource h)⟩,
    fun a => ⟨fun h => hfree₂ (hclosed _ _ h), fun h => hfree₂ (hsource h)⟩,
    firstChildId_ne_secondChildId _ _⟩
  rintro a b ⟨t, ht, hb⟩
  obtain ⟨rfl, rfl⟩ | ⟨rfl, rfl⟩ | ⟨t₀, ht₀, rfl⟩ := splitTask_cases state task reason ht
  · exact Or.inr (Or.inr (Or.inr ⟨rfl, List.mem_singleton.mp hb⟩))
  · exact Or.inr (Or.inr (Or.inl ⟨rfl, task, hstored, hb⟩))
  · rcases mem_dependsOn_keptTask task hb with hb | ⟨rfl, hparent⟩
    · exact Or.inl ⟨t₀, ht₀, hb⟩
    · exact Or.inr (Or.inl ⟨⟨t₀, ht₀, hparent⟩, rfl⟩)

/-- A kept task other than the parent no longer depends on the parent. -/
theorem parent_notMem_keptTask {task t : BacklogTask} {key : String} (hid : t.id = key)
    (hkey : key ≠ task.id) (h₁ : key ≠ firstChildId task.id) (h₂ : key ≠ secondChildId task.id) :
    task.id ∉ (keptTask task key t).dependsOn := by
  refine supersededTaskId_notMem_rewriteCandidate _ _ _ _ (secondChildId_ne_self task.id) ?_ ?_
  · rw [if_neg hkey, hid]
    exact hkey
  · rw [if_neg hkey, hid]
    simp [h₁, h₂]

/-- **Splitting a todo task leaves the backlog grown.** -/
theorem Grown.splitTask (h : state.Grown) {handle : TaskHandle} (hown : state.OwnTodo handle)
    (reason : String) :
    (state.splitTask handle (splitTaskForRetry handle.task reason)).Grown := by
  obtain ⟨task, key⟩ := handle
  obtain rfl : key = task.id := hown.own
  have hstored : state.backlog.tasks.get? task.id = some task := hown.stored
  have htodo : task.status = .todo := hown.todo
  obtain ⟨hfree₁, hfree₂⟩ := h.childIds_free hstored htodo
  have hsplit := splitOf_splitTask reason hstored hfree₁ hfree₂ h.closed
  have hhas := hasStatus_splitTask state task reason hstored
  have hne₁ := firstChildId_ne_self task.id
  have hne₂ := secondChildId_ne_self task.id
  have hkeyNe : ∀ {j}, j ∈ state.backlog.tasks.keys →
      j ≠ firstChildId task.id ∧ j ≠ secondChildId task.id := fun hj =>
    ⟨fun heq => hfree₁ (heq ▸ hj), fun heq => hfree₂ (heq ▸ hj)⟩
  -- The children are todo, the parent is superseded, other tasks keep their status.
  have hhasOld : ∀ {j} σ, j ∈ state.backlog.tasks.keys → j ≠ task.id →
      ((state.splitTask ⟨task, task.id⟩ (splitTaskForRetry task reason)).HasStatus j σ ↔
        state.HasStatus j σ) := by
    intro j σ hj hne
    obtain ⟨h₁, h₂⟩ := hkeyNe hj
    rw [hhas j σ, if_neg h₂, if_neg h₁, if_neg hne]
  have hsuperseded : ∀ {j}, state.HasStatus j .superseded →
      (state.splitTask ⟨task, task.id⟩ (splitTaskForRetry task reason)).HasStatus j .superseded := by
    intro j hj
    have hne : j ≠ task.id := by
      rintro rfl
      rw [hasStatus_iff hstored, htodo] at hj
      cases hj
    exact (hhasOld .superseded hj.mem_keys hne).mpr hj
  have hparentNow : (state.splitTask ⟨task, task.id⟩
      (splitTaskForRetry task reason)).HasStatus task.id .superseded := by
    rw [hhas, if_neg hne₂.symm, if_neg hne₁.symm, if_pos rfl]
  obtain ⟨hchecks₁, hchecks₂⟩ := validateBacklogTask_splitTaskForRetry task reason
  have hkept : ∀ j t, state.backlog.tasks.get? j = some t → ∃ t', (state.splitTask ⟨task, task.id⟩
      (splitTaskForRetry task reason)).backlog.tasks.get? j = some t' ∧
        t'.splitFromTaskId = t.splitFromTaskId ∧
        t'.acceptanceCriteria = t.acceptanceCriteria := by
    intro j t ht
    obtain ⟨h₁, h₂⟩ := hkeyNe (Dict.mem_keys_of_get? ht)
    rw [get?_splitTask, if_neg h₂, if_neg h₁, ht, Option.map_some]
    exact ⟨_, rfl, keptTask_splitFromTaskId task j t, keptTask_acceptanceCriteria task j t⟩
  refine
    { keys := ?_, done_iff := ?_, blocked_iff := ?_, settled := ?_, checked := ?_, suffix := ?_
      criteria := ?_, closed := ?_, live := ?_, ranked := ?_ }
  · intro j t ht
    obtain ⟨rfl, rfl⟩ | ⟨rfl, rfl⟩ | ⟨t₀, ht₀, rfl⟩ := splitTask_cases state task reason ht
    · rfl
    · rfl
    · rw [keptTask_id]
      exact h.keys j t₀ ht₀
  · intro j
    rw [completedTaskIds_splitTask, h.done_iff j,
      hasStatus_splitTask_iff state task reason hstored htodo hfree₁ hfree₂ (Or.inl rfl)]
  · intro j
    rw [blockedTaskIds_splitTask, List.mem_filter, h.blocked_iff j,
      hasStatus_splitTask_iff state task reason hstored htodo hfree₁ hfree₂ (Or.inr rfl)]
    refine and_iff_left_of_imp fun hj => ?_
    rw [decide_eq_true_eq]
    rintro rfl
    rw [hasStatus_iff hstored, htodo] at hj
    cases hj
  · intro j t ht
    obtain ⟨-, rfl⟩ | ⟨-, rfl⟩ | ⟨t₀, ht₀, rfl⟩ := splitTask_cases state task reason ht
    · exact Or.inl rfl
    · exact Or.inl rfl
    · rw [keptTask_status]
      split
      · exact Or.inr (Or.inr (Or.inr rfl))
      · exact h.settled j t₀ ht₀
  · intro j t ht
    obtain ⟨-, rfl⟩ | ⟨-, rfl⟩ | ⟨t₀, ht₀, rfl⟩ := splitTask_cases state task reason ht
    · exact hchecks₂
    · exact hchecks₁
    · have hchecks := h.checked j t₀ ht₀
      rw [validateBacklogTask_eq_nil_iff] at hchecks ⊢
      simpa using hchecks
  · intro j hj hsuffix
    rcases (mem_keys_splitTask state task reason).mp hj with rfl | rfl | hj
    · exact ⟨task.id, hparentNow, Or.inr rfl⟩
    · exact ⟨task.id, hparentNow, Or.inl rfl⟩
    · obtain ⟨parent, hparent, hid⟩ := h.suffix j hj hsuffix
      exact ⟨parent, hsuperseded hparent, hid⟩
  · intro j t ht hs
    obtain ⟨-, rfl⟩ | ⟨-, rfl⟩ | ⟨t₀, ht₀, rfl⟩ := splitTask_cases state task reason ht
    · cases hs
    · cases hs
    · by_cases hj : j = task.id
      · subst hj
        rw [hstored] at ht₀
        cases ht₀
        refine ⟨(splitTaskForRetry task reason).firstChild,
          (splitTaskForRetry task reason).secondChild, ?_, ?_, rfl, rfl, ?_, ?_⟩
        · rw [get?_splitTask, if_neg (firstChildId_ne_secondChildId _ _), if_pos rfl]
        · rw [get?_splitTask, if_pos rfl]
        · rw [keptTask_acceptanceCriteria]
          rfl
        · rw [keptTask_acceptanceCriteria]
          rfl
      · rw [keptTask_status, if_neg hj] at hs
        exact (h.criteria j t₀ ht₀ hs).mono hkept (keptTask_acceptanceCriteria task j t₀)
  · intro a b hab
    rw [mem_keys_splitTask]
    rcases hsplit.edge a b hab with hold | ⟨-, rfl⟩ | ⟨-, hold⟩ | ⟨-, rfl⟩
    · exact Or.inr (Or.inr (h.closed a b hold))
    · exact Or.inl rfl
    · exact Or.inr (Or.inr (h.closed _ b hold))
    · exact Or.inr (Or.inl rfl)
  · rintro a b ⟨t, ht, hb⟩ ha
    have hlive : ∀ t₀, state.backlog.tasks.get? a = some t₀ → a ≠ task.id →
        ∀ d ∈ t₀.dependsOn, ¬ state.HasStatus d .superseded := by
      intro t₀ ht₀ hne d hd
      refine h.live a d ⟨t₀, ht₀, hd⟩ fun hs => ha ?_
      exact hsuperseded hs
    obtain ⟨rfl, rfl⟩ | ⟨rfl, rfl⟩ | ⟨t₀, ht₀, rfl⟩ := splitTask_cases state task reason ht
    · rw [List.mem_singleton.mp hb, hhas, if_neg (firstChildId_ne_secondChildId _ _), if_pos rfl]
      decide
    · -- The first child takes over the dependencies of the parent, which is not its own.
      have hbKey := h.closed task.id b ⟨task, hstored, hb⟩
      have hbNe : b ≠ task.id := by
        rintro rfl
        obtain ⟨rank, hrank⟩ := h.ranked
        exact Nat.lt_irrefl _ (hrank _ _ ⟨task, hstored, hb⟩)
      rw [hhasOld .superseded hbKey hbNe]
      refine h.live task.id b ⟨task, hstored, hb⟩ ?_
      rw [hasStatus_iff hstored, htodo]
      decide
    · have haNe : a ≠ task.id := by
        rintro rfl
        exact ha hparentNow
      obtain ⟨h₁, h₂⟩ := hkeyNe (Dict.mem_keys_of_get? ht₀)
      have hbNe : b ≠ task.id := by
        rintro rfl
        exact parent_notMem_keptTask (h.keys a t₀ ht₀) haNe h₁ h₂ hb
      rcases mem_dependsOn_keptTask task hb with hb | ⟨rfl, -⟩
      · rw [hhasOld .superseded (h.closed a b ⟨t₀, ht₀, hb⟩) hbNe]
        exact hlive t₀ ht₀ haNe b hb
      · rw [hhas, if_pos rfl]
        decide
  · obtain ⟨rank, hrank⟩ := h.ranked
    exact hsplit.ranked hrank

/-! ### Runs -/

/-- The outcomes of runs alone, without the operator. -/
def OutcomeKind.OfRun : OutcomeKind → Prop
  | .recorded | .failed | .completed | .split | .blocked => True
  | .resumed | .replayed | .markedDone => False

/-- **Outcomes of runs leave the backlog grown.** -/
theorem Grown.step (h : state.Grown) {kind : OutcomeKind} (hkind : kind.OfRun)
    (houtcome : Outcome kind state state') : state'.Grown := by
  have hunlisted : ∀ {handle : TaskHandle}, state.OwnTodo handle →
      handle.task.id ∉ state.execution.completedTaskIds ∧
        handle.task.id ∉ state.execution.blockedTaskIds := by
    intro handle own
    rw [h.done_iff, h.blocked_iff, hasStatus_iff own.stored, hasStatus_iff own.stored, own.todo]
    exact ⟨by decide, by decide⟩
  have hside : ∀ {updated : ProjectState}, updated.Grown → updated.Recorded state' →
      state'.Grown := fun hgrown hrec =>
    hgrown.of_eq hrec.book.backlog hrec.book.completed hrec.book.blocked
  cases houtcome with
  | recorded hrec => exact hside h hrec
  | failed failure hrec =>
    have hcounted : (state.countFailure failure).Grown := h.of_eq rfl rfl rfl
    exact hside hcounted hrec
  | completed own hrec =>
    exact hside (h.of_restatused (own.restatused_completeTask (hunlisted own).2) own.todo
      (Or.inl rfl)) hrec
  | split reason own whole hrec => exact hside (h.splitTask own reason) hrec
  | blocked own hfailed hrec =>
    exact hside (h.of_restatused (own.restatused_blockTask (hunlisted own).1) own.todo
      (Or.inr rfl)) hrec
  | resumed => exact hkind.elim
  | replayed => exact hkind.elim
  | markedDone => exact hkind.elim

/-- Any run of such outcomes leaves the backlog grown. -/
theorem Outcomes.grown (hrun : Outcomes OutcomeKind.OfRun state state') (h : state.Grown) :
    state'.Grown := by
  induction hrun with
  | refl => exact h
  | tail _ hstep ih =>
    obtain ⟨_, hkind, houtcome⟩ := hstep
    exact ih.step hkind houtcome

/-- **Dependencies on tasks of the backlog**: none names a member that every object inherits and
that the lookup finds although no such task is there. -/
def OwnDependencies (state : ProjectState) : Prop :=
  ∀ task ∈ state.backlog.tasks.values, ∀ dependency ∈ task.dependsOn,
    dependency ∈ inheritedNames → dependency ∈ state.backlog.tasks.keys

/-- The dependencies of an accepted state are tasks of the backlog, where none names an inherited
member. -/
theorem OwnDependencies.closed (h : state.OwnDependencies) (hvalid : state.Valid) {a b : String}
    (hedge : state.DependsOn a b) : b ∈ state.backlog.tasks.keys := by
  obtain ⟨task, hget, hb⟩ := hedge
  have hmem := Dict.mem_values_of_get? hget
  rcases (hvalid.taskRefs task hmem).2.2 b hb with hkey | hinherited
  · exact hkey
  · exact h task hmem b hb hinherited

/-- **A fresh backlog**: an accepted state whose tasks are all todo and stored under their
own ids, none of which looks like a split child's, with dependencies on tasks of the backlog and an
acyclic dependency graph. -/
structure Fresh (state : ProjectState) : Prop where
  accepted : validateProjectState state = []
  ownDependencies : state.OwnDependencies
  todo : ∀ key task, state.backlog.tasks.get? key = some task → task.status = .todo
  keys : ∀ key task, state.backlog.tasks.get? key = some task → task.id = key
  whole : ∀ key, key ∈ state.backlog.tasks.keys → endsInSplitSuffix key = false
  acyclic : DepGraph.Acyclic state.DependsOn

/-- A fresh backlog is grown. -/
theorem Fresh.grown (h : state.Fresh) : state.Grown := by
  have hvalid := validateProjectState_eq_nil_iff.mp h.accepted
  have hstatus : ∀ id σ, state.HasStatus id σ → σ = .todo := by
    rintro id σ ⟨task, hget, rfl⟩
    exact h.todo id task hget
  have hclosed : ∀ a b, state.DependsOn a b → b ∈ state.backlog.tasks.keys :=
    fun _ _ => h.ownDependencies.closed hvalid
  refine
    { keys := h.keys, done_iff := ?_, blocked_iff := ?_
      settled := fun key task hget => Or.inl (h.todo key task hget), checked := ?_
      suffix := ?_, criteria := ?_, closed := hclosed, live := ?_, ranked := ?_ }
  · intro id
    refine iff_of_false (fun hid => ?_) fun hd => by cases hstatus id _ hd
    have hdone : state.HasStatus id .done := hvalid.completedRefs id hid
    cases hstatus id _ hdone
  · intro id
    refine iff_of_false (fun hid => ?_) fun hb => by cases hstatus id _ hb
    obtain ⟨task, hget, hblocked, -⟩ := hvalid.blockedRefs id hid
    cases hstatus id _ ⟨task, hget, hblocked⟩
  · intro key task hget
    exact (hvalid.taskRefs task (Dict.mem_values_of_get? hget)).1
  · intro key hkey hsuffix
    rw [h.whole key hkey] at hsuffix
    cases hsuffix
  · intro key task hget hs
    rw [h.todo key task hget] at hs
    cases hs
  · intro a b _ _ hs
    cases hstatus b _ hs
  · exact DepGraph.exists_ranked state.backlog.tasks.keys hclosed h.acyclic

/-! ### Progress -/

/-- A task that is not superseded reaches no superseded task. -/
theorem Grown.notSuperseded_of_reach (h : state.Grown) {a b : String}
    (hreach : Relation.ReflTransGen state.DependsOn a b) (ha : ¬ state.HasStatus a .superseded) :
    ¬ state.HasStatus b .superseded := by
  induction hreach with
  | refl => exact ha
  | tail _ hstep ih => exact h.live _ _ hstep ih

/-- **No deadlock**: while some task is open and neither it nor anything it transitively
depends on is blocked, the selector finds a task. -/
theorem Grown.selectNextTask_isSome (h : state.Grown) (host : Host) {key : String}
    {task : BacklogTask} (hget : state.backlog.tasks.get? key = some task)
    (hdone : task.status ≠ .done) (hsuperseded : task.status ≠ .superseded)
    (hfree : ∀ d, Relation.ReflTransGen state.DependsOn key d → ¬ state.HasStatus d .blocked) :
    (selectNextTask host state).isSome := by
  obtain ⟨rank, hrank⟩ := h.ranked
  -- The last open task on the way: everything it depends on is done.
  obtain ⟨last, hreach, ⟨t, ht, hopen⟩, hlast⟩ := hrank.exists_last
    (p := fun j => ∃ t, state.backlog.tasks.get? j = some t ∧ t.status ≠ .done)
    ⟨task, hget, hdone⟩
  have hnotSuperseded := h.notSuperseded_of_reach hreach
    (by rw [hasStatus_iff hget]; exact hsuperseded)
  have hnotBlocked := hfree last hreach
  rw [hasStatus_iff ht] at hnotSuperseded hnotBlocked
  have htodo : t.status = .todo := by
    rcases h.settled last t ht with hs | hs | hs | hs
    · exact hs
    · exact absurd hs hopen
    · exact absurd hs hnotBlocked
    · exact absurd hs hnotSuperseded
  rw [selectNextTask_isSome_iff]
  refine ⟨(last, t), mem_executableEntries.mpr ⟨ht, isExecutableTask_iff.mpr
    ⟨htodo, ?_, h.checked last t ht, ?_⟩⟩⟩
  · rw [h.keys last t ht, h.blocked_iff, hasStatus_iff ht, htodo]
    decide
  · intro dependency hdep
    have hedge : state.DependsOn last dependency := ⟨t, ht, hdep⟩
    obtain ⟨d, hd⟩ := Dict.exists_get?_iff.mpr (h.closed _ _ hedge)
    rw [h.done_iff, hasStatus_iff hd]
    by_contra hne
    exact hlast dependency hedge ⟨d, hd, hne⟩

/-! ### Criteria -/

/-- **Criteria of a split**, counted: the children have the parent's criteria, each once,
and, of a parent with at most one criterion, the two standard criteria besides. -/
theorem count_splitAcceptanceCriteria (criteria : List String) (text : String) :
    (splitAcceptanceCriteria criteria).1.count text +
        (splitAcceptanceCriteria criteria).2.count text =
      criteria.count text +
        if criteria.length ≤ 1 then [narrowCriterion, integrationCriterion].count text else 0 := by
  by_cases hlen : criteria.length ≤ 1
  · have hpair : [narrowCriterion, integrationCriterion] =
        [narrowCriterion] ++ [integrationCriterion] := rfl
    rw [splitAcceptanceCriteria, if_pos hlen, if_pos hlen, hpair]
    simp only [List.count_append]
    omega
  · rw [if_neg hlen, Nat.add_zero, ← List.count_append,
      splitAcceptanceCriteria_append (Nat.lt_of_not_le hlen)]

end ProjectState

end AiOrchestrator
