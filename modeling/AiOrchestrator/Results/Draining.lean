import AiOrchestrator.Results.Histories

/-!
# Nothing left to do

An idle result of a default orchestrator tells the truth about the store that the cycle began with
(`idle_results_true`). When it says that no task can be executed, every open task waits for a blocked
one, and stays so: from then on no cycle moves the backlog or handles a task (`nothing_left_for_good`).
-/

namespace AiOrchestrator

open ProjectState

/-- The task that a request forces. -/
def CycleRequest.forced : CycleRequest → Option String
  | .runCycle options => presentText options.forcedTaskId
  | .runSingleTask taskId => presentText (some taskId)

section

variable {rt : Runtime} {w : World} {c : Observed}

theorem CycleRequest.idle (hdefault : rt.replacesTaskManager = false) {start : ProjectState}
    (request : CycleRequest) :
    Act.Triple (amidRules rt)
      (fun c => Shown rt.config.workflow start .untouched c.1.store.current) (request.program rt)
      (fun result c => result.Truthful rt.config.workflow start c.2 request.forced)
      (fun _ _ => True) := by
  cases request with
  | runCycle options => exact runCycle_idle hdefault options
  | runSingleTask taskId => exact runSingleTask_idle hdefault taskId

/-- What a cycle has come to is about a task, or says truly why not. -/
theorem CycleRequest.truthful (hdefault : rt.replacesTaskManager = false) (request : CycleRequest)
    (hvalid : w.store.current.Valid) {result : RunCycleResult}
    (hrun : Prog.Path (Prog.recorded (Op.amidRecords rt.host)) ((request.program rt).run, (w, []))
      (.ret (.ok result), c)) :
    result.Truthful rt.config.workflow w.store.current c.2 request.forced := by
  have hshown : Shown rt.config.workflow w.store.current .untouched w.store.current :=
    ⟨.untouched, Beside.refl _, hvalid⟩
  exact Prog.wp_path (R := amidRules rt) (request.idle hdefault (w, []) hshown) hrun

/-- **Idle results tell the truth**: a result about no task of an orchestrator with the default task
manager names the lease that the cycle was refused, the steps or retries that the store has used up,
the forced task that cannot be executed, or that no task can, and so it is in the store that the cycle
began with. -/
theorem idle_results_true (hdefault : rt.replacesTaskManager = false) (request : CycleRequest)
    (haccepted : validateProjectState w.store.current = []) {result : RunCycleResult}
    (hrun : Prog.Path (Prog.recorded (Op.amidRecords rt.host)) ((request.program rt).run, (w, []))
      (.ret (.ok result), c))
    (hidle : result.taskId = none) :
    ∃ reason, result.stopReason = some reason ∧
      IdleReason rt.config.workflow w.store.current c.2 request.forced reason :=
  request.truthful hdefault (validateProjectState_eq_nil_iff.mp haccepted) hrun hidle

end

/-- After the split and the blocked part, the idle cycle tells the truth. -/
theorem idle_results_true_blocked :
    ∃ reason, Runtime.idleResult.stopReason = some reason ∧
      IdleReason Runtime.onceRuntime.config.workflow Runtime.blockedCycle.2.1.store.current
        Runtime.idleCycle.2.2 none reason := by
  obtain ⟨⟨-, -, hidle, -⟩, -⟩ := Runtime.cycles_report
  have haccepted : validateProjectState Runtime.blockedCycle.2.1.store.current = [] := by
    obtain ⟨hvalid, -⟩ := (blockedHistory False).keeps
      (validateProjectState_eq_nil_iff.mp ProjectState.oneTask_initial.accepted)
      ProjectState.oneTask_initial.consistent
    exact validateProjectState_eq_nil_iff.mpr hvalid
  have hpath := Runtime.cycleOver_reports hidle
  exact idle_results_true rfl (.runCycle {}) haccepted hpath rfl

/-! ### Exhausted stores -/

section

variable {limits : RunLimits} {start current : ProjectState} {results : List RunCycleResult}

/-- **Open tasks wait**: each of them depends on a blocked one, or is blocked itself. -/
def ProjectState.OpenTasksWait (state : ProjectState) : Prop :=
  ∀ key task, state.backlog.tasks.get? key = some task → task.status ≠ .done →
    task.status ≠ .superseded →
      ∃ d, Relation.ReflTransGen state.DependsOn key d ∧ state.HasStatus d .blocked

/-- They wait because nothing can be executed. -/
theorem ProjectState.Grown.openTasksWait (h : start.Grown) (host : Host)
    (hexhausted : start.Exhausted) : start.OpenTasksWait := by
  intro key task hget hdone hsuperseded
  by_contra hfree
  have hnone : ∀ d, Relation.ReflTransGen start.DependsOn key d → ¬ start.HasStatus d .blocked :=
    fun d hreach hblocked => hfree ⟨d, hreach, hblocked⟩
  have hsome := h.selectNextTask_isSome host hget hdone hsuperseded hnone
  obtain ⟨⟨other, entry⟩, hentry⟩ := selectNextTask_isSome_iff.mp hsome
  exact hexhausted other entry (mem_executableEntries.mp hentry)

/-- Waiting is a matter of the backlog. -/
theorem ProjectState.OpenTasksWait.of_eq (h : start.OpenTasksWait)
    (hbacklog : current.backlog = start.backlog) : current.OpenTasksWait := by
  unfold OpenTasksWait DependsOn HasStatus at *
  rw [hbacklog]
  exact h

theorem ProjectState.Exhausted.beside (h : start.Exhausted) (hbeside : start.Beside current) :
    current.Exhausted :=
  fun key task hexecutable => h key task (hbeside.book.executableIn_iff.mp hexecutable)

/-- Where no task can be executed there is nothing to attempt. -/
theorem Attempt.Justified.untouched_of_exhausted {attempt : Attempt}
    (h : attempt.Justified limits start) (hexhausted : start.Exhausted) : attempt = .untouched := by
  cases h with
  | untouched => rfl
  | failed hexecutable => exact absurd hexecutable (hexhausted _ _)
  | split hexecutable => exact absurd hexecutable (hexhausted _ _)
  | blocked hexecutable => exact absurd hexecutable (hexhausted _ _)
  | completed hexecutable => exact absurd hexecutable (hexhausted _ _)

/-- **The run lemma**: cycles over an exhausted store leave it so. -/
theorem History.beside_of_exhausted (h : History limits False start results current)
    (hvalid : start.Valid) (hconsistent : start.Consistent) (hexhausted : start.Exhausted) :
    start.Beside current ∧ ∀ result ∈ results, result.taskId = none := by
  induction h with
  | begin => exact ⟨Beside.refl _, fun _ hmem => absurd hmem List.not_mem_nil⟩
  | operate _ hallowed => exact hallowed.elim
  | @cycle results w earlier rt hlimits request q c hrun hchoice ih =>
    obtain ⟨hbefore, -⟩ := earlier.keeps hvalid hconsistent
    obtain ⟨attempt, hshown, hreported, -⟩ := request.shown hbefore hrun hchoice
    obtain rfl := hshown.justified.untouched_of_exhausted (hexhausted.beside ih.1)
    refine ⟨ih.1.trans hshown.beside, fun result hmem => ?_⟩
    rcases List.mem_append.mp hmem with hmem | hmem
    · exact ih.2 result hmem
    · exact (hreported result (mem_resultsOf hmem)).1

/-- The work of cycles is a run of outcomes. -/
theorem History.outcomes (h : History limits False start results current) (hvalid : start.Valid)
    (hconsistent : start.Consistent) : Outcomes OutcomeKind.OfRun start current := by
  induction h with
  | begin => exact .refl
  | operate _ hallowed => exact hallowed.elim
  | cycle earlier rt hlimits request hrun hchoice ih =>
    obtain ⟨hbefore, hbeforeConsistent⟩ := earlier.keeps hvalid hconsistent
    obtain ⟨attempt, hshown, -⟩ := request.shown hbefore hrun hchoice
    exact ih.trans (hshown.outcomes hbefore hbeforeConsistent)

end

/-- The project of one task is fresh. -/
theorem ProjectState.oneTask_fresh : oneTask.Fresh where
  accepted := oneTask_initial.accepted
  ownDependencies := by
    intro task hvalue id hmem
    obtain ⟨key, hget⟩ := Dict.mem_values_iff.mp hvalue
    obtain ⟨-, rfl⟩ := oneTask_get? hget
    exact absurd hmem List.not_mem_nil
  todo := fun key task hget => by rw [(oneTask_get? hget).2]; rfl
  keys := oneTask_initial.keys
  whole := oneTask_initial.whole
  acyclic := by
    have hranked : DepGraph.Ranked oneTask.DependsOn fun _ => 0 := by
      rintro a b ⟨task, hget, hb⟩
      obtain ⟨-, rfl⟩ := oneTask_get? hget
      cases hb
    exact hranked.acyclic

end AiOrchestrator
