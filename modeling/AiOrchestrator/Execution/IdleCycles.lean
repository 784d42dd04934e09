import AiOrchestrator.Execution.AttemptRuns
import AiOrchestrator.Lib.Returns

/-!
# Cycles that handle no task

A result without a task says why the cycle handled none, and the reason is true of the state that the
cycle began with (`runCycle_idle`). For the default task manager, which selects from the copy, that no
task was selected means that none was executable (`taskManager_idle`); another one may answer nothing
whatever there is. The default one also answers executable tasks only, so that nothing has to be
assumed of its choice (`selectsNone_runCycle`).
-/

namespace AiOrchestrator

open ProjectState

/-! ### What a run of a task returns -/

section Returned

variable (rt : Runtime)

theorem returns_handleFailure (handle : TaskHandle) (role : RuntimeFailureRole)
    (reason runId : String) :
    (rt.handleFailure handle role reason runId).Returns fun result =>
      result.taskId = some handle.task.id := by
  unfold Runtime.handleFailure
  refine Act.returns_bind fun state => ?_
  dsimp only
  generalize nextFailureAction _ _ _ = action
  refine Act.returns_bind fun now => Act.returns_bind fun counted => ?_
  obtain ⟨failure, retryCount⟩ := counted
  refine Act.returns_bind fun _ => Act.returns_bind fun _ => ?_
  cases action with
  | retry => exact Act.returns_bind fun _ => Act.returns_pure rfl
  | split =>
    show (Runtime.splitTaskForFailure handle reason runId).Returns _
    unfold Runtime.splitTaskForFailure
    refine Act.returns_bind fun _ => Act.returns_bind fun _ => Act.returns_bind fun _ => ?_
    refine Act.returns_bind fun _ => Act.returns_bind fun _ => Act.returns_bind fun _ => ?_
    refine Act.returns_bind fun _ => Act.returns_bind fun _ => Act.returns_bind fun _ => ?_
    exact Act.returns_pure rfl
  | block =>
    show (Runtime.blockTaskForFailure handle reason runId).Returns _
    unfold Runtime.blockTaskForFailure
    refine Act.returns_bind fun _ => Act.returns_bind fun _ => Act.returns_bind fun _ => ?_
    refine Act.returns_bind fun _ => Act.returns_bind fun _ => Act.returns_bind fun _ => ?_
    exact Act.returns_bind fun _ => Act.returns_pure rfl

variable (run : Runtime.TaskRun)

theorem returns_completeTask (summary : String) :
    (rt.completeTask run summary).Returns fun result =>
      result.1.taskId = some run.handle.task.id := by
  unfold Runtime.completeTask
  refine Act.returns_bind fun _ => Act.returns_bind fun _ => Act.returns_bind fun _ => ?_
  refine Act.returns_bind fun _ => Act.returns_bind fun _ => Act.returns_bind fun _ => ?_
  refine Act.returns_bind fun _ => Act.returns_bind fun gitLifecycleStatus => ?_
  refine Act.returns_bind fun _ => Act.returns_bind fun _ => Act.returns_bind fun _ => ?_
  refine Act.returns_bind fun _ => ?_
  cases gitLifecycleStatus with
  | approvalPending => exact Act.returns_pure rfl
  | ok => exact Act.returns_pure rfl

theorem returns_runTaskBody :
    (rt.runTaskBody run).Returns fun result => result.1.taskId = some run.handle.task.id := by
  have hfailure : ∀ role reason, (do
      let result ← rt.handleFailure run.handle role reason run.runId
      pure (result, .failed) : Action (RunCycleResult × RunOutcome)).Returns fun result =>
        result.1.taskId = some run.handle.task.id := fun role reason =>
    (returns_handleFailure rt run.handle role reason run.runId).bind fun _ h => Act.returns_pure h
  unfold Runtime.runTaskBody
  refine Act.returns_bind fun _ => Act.returns_bind fun _ => Act.returns_bind fun _ => ?_
  refine Act.returns_bind fun prompt => Act.returns_bind fun response => ?_
  refine Act.returns_bind fun approved => ?_
  split
  · exact hfailure _ _
  refine Act.returns_bind fun passed => ?_
  split
  · exact hfailure _ _
  · exact Act.returns_bind fun summary => returns_completeTask rt run summary

/-- **The result of a run in a workspace** is about the task of the run. -/
theorem returns_runInWorkspace (handle : TaskHandle) (runId : String) :
    (rt.runInWorkspace handle runId).Returns fun result =>
      result.taskId = some handle.task.id := by
  have hrun : ∀ run : Runtime.TaskRun, run.handle = handle →
      (rt.runTask run).Returns fun result => result.taskId = some handle.task.id := by
    rintro run rfl
    unfold Runtime.runTask
    refine Act.returns_bind fun _ => Act.returns_bind fun _ => Act.returns_bind fun _ => ?_
    refine (returns_runTaskBody rt run).finallyDo.bind fun result h => ?_
    obtain ⟨result, outcome⟩ := result
    exact Act.returns_pure h
  unfold Runtime.runInWorkspace
  refine Act.returns_bind fun _ => Act.returns_bind fun _ => Act.returns_bind fun _ => ?_
  refine Act.returns_bind fun _ => Act.Returns.finallyDo (Act.Returns.catching (hrun _ rfl) ?_)
  exact fun _ => Act.returns_bind fun _ => Act.returns_throw _

end Returned

/-! ### The default task manager -/

/-- The operation asks a role of the registry to select a task. -/
def Op.selects : Op → Prop
  | .executeRole _ req _ | .executeRoleStep _ req _ _ => req.input.task? = none
  | _ => False

theorem Op.not_selects_of_kind {o : Op} (hrole : o.kind ≠ .role) (hexecute : o.kind ≠ .execute) :
    ¬ o.selects := by
  cases o with
  | executeRole name req context =>
    cases hinput : req.input <;> simp [Op.kind, RoleInput.kind, hinput] at hrole hexecute
  | executeRoleStep name req context observations =>
    cases hinput : req.input <;> simp [Op.kind, RoleInput.kind, hinput] at hrole hexecute
  | _ => exact id

theorem Op.not_selects_of_plain {o : Op} (h : o.kind.plain) : ¬ o.selects := by
  refine Op.not_selects_of_kind ?_ ?_ <;> intro hkind <;> rw [hkind] at h <;> exact h

theorem not_selects_of_call {name : AgentRoleName} {input : RoleInput} {task : BacklogTask}
    (hinput : input.task? = some task) {o : Op} (h : CallOp name input o) : ¬ o.selects := by
  cases h with
  | quiet hquiet => exact Op.not_selects_of_plain (OpKind.plain_of_quiet hquiet)
  | @execute req context hreq =>
    show ¬ req.input.task? = none
    rw [hreq, hinput]
    exact Option.some_ne_none task
  | @step req context observations hreq =>
    show ¬ req.input.task? = none
    rw [hreq, hinput]
    exact Option.some_ne_none task

theorem RunOp.not_selects {handle : TaskHandle} {o : Op} (h : RunOp handle o) : ¬ o.selects := by
  rcases h.call_or with ⟨name, input, hinput, hcall⟩ | hkind
  · exact not_selects_of_call hinput hcall
  · refine Op.not_selects_of_kind ?_ ?_ <;> intro heq <;> rw [heq] at hkind <;> exact hkind

section Default

variable {rt : Runtime} (hdefault : rt.replacesTaskManager = false)

include hdefault in
/-- The default task manager asks nobody. -/
theorem selectsNone_selectTask (runId : String) :
    Act.Uses (fun o => ¬ o.selects) (rt.selectTask runId) := by
  have hplain : ∀ {o : Op}, o.kind.plain → Act.Uses (fun o => ¬ o.selects) (request o) := fun h =>
    uses_request (Op.not_selects_of_plain h)
  refine Act.uses_bind (hplain trivial) fun state => Act.uses_bind ?_ fun response => ?_
  · rw [Runtime.taskManager, if_neg (by rw [hdefault]; exact Bool.false_ne_true)]
    refine uses_executeRole rt
      (fun o h => Op.not_selects_of_plain (OpKind.plain_of_quiet h)) ⟨?_, ?_, ?_⟩ _ _
    · exact Act.uses_bind (uses_request id) fun copy => Act.uses_pure _
    · rintro _ ⟨⟩
    · exact fun response => Act.uses_pure _
  · exact Act.uses_bind (uses_request id) fun _ => Act.uses_pure _

include hdefault in
theorem selectsNone_runUnderLease (runId : String) (options : Runtime.RunCycleOptions) :
    Act.Uses (fun o => ¬ o.selects) (rt.runUnderLease runId options) := by
  unfold Runtime.runUnderLease
  refine Act.uses_bind (uses_request (o := .requireValid) id) fun _ => ?_
  refine Act.uses_bind (uses_request (o := .readState) id) fun state => ?_
  generalize assertProjectState state = valid
  generalize shouldStopRun state rt.config.workflow = stop
  refine Act.uses_bind (Act.uses_ofExcept valid) fun _ => ?_
  cases stop with
  | some reason =>
    exact Act.uses_bind (uses_request (o := .randomUUID) id) fun _ => Act.uses_pure _
  | none =>
    dsimp only
    generalize presentText options.forcedTaskId = forced
    refine Act.uses_bind ?_ fun choice => ?_
    · cases forced with
      | some taskId => exact Act.uses_pure _
      | none => exact selectsNone_selectTask hdefault runId
    · cases choice with
      | none => exact Act.uses_pure _
      | some handle => exact (uses_runInWorkspace rt runId).mono fun _ h => RunOp.not_selects h

include hdefault in
theorem selectsNone_runCycle (options : Runtime.RunCycleOptions) :
    Act.Uses (fun o => ¬ o.selects) (rt.runCycle options) := by
  refine Act.uses_bind (uses_request (o := .updateShared .resetRun) id) fun _ => ?_
  refine Act.uses_bind (uses_request (o := .randomUUID) id) fun runId => ?_
  refine Act.uses_bind (uses_request (o := .load) id) fun _ => ?_
  refine Act.uses_bind (uses_request (o := .acquireRunLease) id) fun acquired => ?_
  split
  · exact Act.uses_pure _
  · exact Act.uses_finallyDo (selectsNone_runUnderLease hdefault runId options) fun _ =>
      Act.uses_ignoring (uses_request (o := .release) id)

include hdefault in
theorem selectsNone_runSingleTask (taskId : String) :
    Act.Uses (fun o => ¬ o.selects) (rt.runSingleTask taskId) := by
  unfold Runtime.runSingleTask
  refine Act.uses_bind (uses_request (o := .load) id) fun _ => ?_
  refine Act.uses_bind (uses_request (o := .readState) id) fun state => ?_
  generalize assertProjectState state = valid
  refine Act.uses_bind (Act.uses_ofExcept valid) fun _ => ?_
  split
  · exact Act.uses_throw _
  split_ifs
  · exact Act.uses_throw _
  · exact Act.uses_throw _
  · exact Act.uses_throw _
  · exact selectsNone_runCycle hdefault _

end Default

/-- Where nobody is asked to select, no answer has to be executable. -/
theorem choiceExecutable_of_selectsNone {record : List RunEvent}
    (h : ∀ e ∈ record, ¬ e.op.selects) : ChoiceExecutable record := by
  intro state response hmem
  obtain ⟨e, he, hresponse⟩ := List.mem_filterMap.mp hmem
  exfalso
  refine h e he ?_
  obtain ⟨o, x, w⟩ := e
  cases o with
  | executeRole name req context =>
    cases x with
    | error error => cases hresponse
    | ok answer =>
      have hinput : req.input = .select state := by
        have := Option.some.inj hresponse
        injection this
      show req.input.task? = none
      rw [hinput]
      rfl
  | executeRoleStep name req context observations =>
    cases x with
    | error error => cases hresponse
    | ok result =>
      cases result with
      | finalOutput answer =>
        have hinput : req.input = .select state := by
          have := Option.some.inj hresponse
          injection this
        show req.input.task? = none
        rw [hinput]
        rfl
      | _ => cases hresponse
  | _ => cases hresponse

/-! ### Idle results -/

/-- **Exhausted**: no task can be executed. -/
def ProjectState.Exhausted (state : ProjectState) : Prop :=
  ∀ key task, ¬ ExecutableIn state key task

/-- The lease of the run is refused. -/
def refusesLease : RunEvent → Bool
  | ⟨.acquireRunLease, .ok acquired, _⟩ => !acquired
  | _ => false

/-- **What an idle result says** of the state that the cycle began with, for each reason; that the lock
is not available, of the record of the cycle. -/
inductive IdleReason (limits : RunLimits) (start : ProjectState) (record : List RunEvent) :
    Option String → String → Prop
  | locked {forced : Option String} (h : record.any refusesLease = true) :
      IdleReason limits start record forced "run_lock_unavailable"
  | steps {forced : Option String} (h : limits.maxStepsPerRun ≤ start.execution.stepCount) :
      IdleReason limits start record forced "max_steps_per_run_reached"
  | retries {forced : Option String} {taskId : String} (hne : taskId ≠ "")
      (h : limits.maxRetriesPerTask ≤ start.retryCount taskId) :
      IdleReason limits start record forced "max_retries_reached"
  | forced {taskId : String} (h : ∀ task, ¬ ExecutableIn start taskId task) :
      IdleReason limits start record (some taskId) "forced_task_not_executable"
  | nothing (h : start.Exhausted) : IdleReason limits start record none "no_executable_task"

theorem IdleReason.exhausted {limits : RunLimits} {start : ProjectState} {record : List RunEvent}
    {forced : Option String} (h : IdleReason limits start record forced "no_executable_task") :
    start.Exhausted := by
  generalize hreason : "no_executable_task" = reason at h
  cases h with
  | nothing hnothing => exact hnothing
  | locked | steps | retries | forced => exact absurd hreason (by decide)

/-- The result is about a task, or says truly why not. -/
def RunCycleResult.Truthful (limits : RunLimits) (start : ProjectState) (record : List RunEvent)
    (forced : Option String) (result : RunCycleResult) : Prop :=
  result.taskId = none →
    ∃ reason, result.stopReason = some reason ∧ IdleReason limits start record forced reason

/-- A run stops for a reason that is true beside the work. -/
theorem idleReason_of_shouldStopRun {limits : RunLimits} {start state : ProjectState}
    (hstate : start.Beside state) {record : List RunEvent} {forced : Option String}
    {reason : String} (hstop : shouldStopRun state limits = some reason) :
    IdleReason limits start record forced reason := by
  have hretries : ∀ taskId, state.retryCount taskId = start.retryCount taskId := by
    intro taskId
    unfold retryCount
    rw [hstate.book.retryCounts]
  unfold shouldStopRun at hstop
  split at hstop
  · next hsteps =>
    cases hstop
    exact .steps (hstate.steps ▸ hsteps)
  · split at hstop
    · next taskId hactive =>
      split_ifs at hstop with hused
      cases hstop
      exact .retries hused.1 (hretries taskId ▸ hused.2.2)
    · cases hstop

section Idle

variable {rt : Runtime} {start : ProjectState}

/-- The store and the copy show nothing yet. -/
abbrev Unmoved (rt : Runtime) (start : ProjectState) (c : Observed) : Prop :=
  Stage rt.config.workflow start .untouched .untouched c.1

/-- A cycle while other clients record things on the side. -/
abbrev amidRules (rt : Runtime) : Prog.Rules Op Op.Ans Observed :=
  Prog.Rules.free (Prog.recorded (Op.amidRecords rt.host))

/-- **The default task manager** answers nothing only if nothing is executable. -/
theorem taskManager_idle (hdefault : rt.replacesTaskManager = false) (req : RoleRequest)
    (context : RoleExecutionContext) :
    Act.Triple (attemptRules rt.host rt.config.workflow start) (Unmoved rt start)
      (rt.executeRole (rt.taskManager req context) req context)
      (fun response c => Unmoved rt start c ∧ (response.output = none → start.Exhausted))
      (fun _ => Unmoved rt start) := by
  have hquiet := (@stable_stage rt.host rt.config.workflow start .untouched .untouched).mono
    fun _ h => OpKind.steady_of_plain (OpKind.plain_of_quiet h)
  rw [Runtime.taskManager, if_neg (by rw [hdefault]; exact Bool.false_ne_true)]
  refine executeRole_spec rt hquiet ?_ (fun response o c ho hc => ?_) (fun _ _ h => h.1)
    fun _ => Act.uses_pure _
  · refine Act.Triple.bind (Q := fun copy c => Unmoved rt start c ∧ start.Beside copy) ?_
      fun copy => Act.Triple.pure ?_
    · refine triple_request (fun c hc => hc.shown.allowed _) fun c x c' hc he => ?_
      have hnext : Unmoved rt start c' := hc.effect (by exact trivial) he.1
      obtain ⟨⟨answer, store, -, -, heq⟩, -⟩ := he
      obtain ⟨rfl, -⟩ := Prod.mk.inj heq
      exact ⟨hnext, hc.copy⟩
    · rintro c ⟨hstage, hcopy⟩
      refine ⟨hstage, fun (hnone : selectNextEntry rt.host copy = none) key task hexecutable => ?_⟩
      have hentry : (key, task) ∈ executableEntries copy :=
        mem_executableEntries.mpr (hcopy.book.executableIn_iff.mpr hexecutable)
      have hsome : (selectNextEntry rt.host copy).isSome :=
        selectNextEntry_isSome_iff.mpr ⟨_, hentry⟩
      rw [hnone] at hsome
      cases hsome
  · have hstage := hquiet o c ho hc.1
    exact ⟨hstage.1, fun x c' he => ⟨hstage.2 x c' he, hc.2⟩⟩

theorem selectTask_idle (hdefault : rt.replacesTaskManager = false) (runId : String) :
    Act.Triple (amidRules rt) (Unmoved rt start) (rt.selectTask runId)
      (fun choice _ => choice = none → start.Exhausted) (fun _ _ => True) := by
  have hread : Act.Triple (amidRules rt) (Unmoved rt start) (request .readState)
      (fun _ => Unmoved rt start) (fun _ _ => True) :=
    readCopy_spec.free.imp (fun _ h => h) (fun _ _ h => h.1) fun _ _ _ => trivial
  refine Act.Triple.bind hread fun state => ?_
  refine Act.Triple.bind ((taskManager_idle hdefault _ _).free.imp (fun _ h => h) (fun _ _ h => h)
    fun _ _ _ => trivial) fun response => ?_
  refine Act.Triple.bind (Q := fun _ _ => response.output = none → start.Exhausted) ?_
    fun _ => Act.Triple.pure fun c hc hnone => hc (Option.map_eq_none_iff.mp hnone)
  refine triple_request (fun _ _ => trivial) fun c x c' hc he => ?_
  cases x with
  | error error => trivial
  | ok result => exact hc.2

theorem choose_idle (hdefault : rt.replacesTaskManager = false) {state : ProjectState}
    (hstate : start.Beside state) (runId : String) (forced : Option String) :
    Act.Triple (amidRules rt) (Unmoved rt start)
      (match forced with
      | some taskId => pure (Runtime.selectForcedTask state taskId)
      | none => rt.selectTask runId)
      (fun choice _ => choice = none → ∀ record, IdleReason rt.config.workflow start record forced
        (if forced.isSome then "forced_task_not_executable" else "no_executable_task"))
      (fun _ _ => True) := by
  cases forced with
  | some taskId =>
    refine Act.Triple.pure fun c _ hnone record => .forced fun task hexecutable => ?_
    obtain ⟨hget, hpasses⟩ := hstate.book.executableIn_iff.mpr hexecutable
    rw [Runtime.selectForcedTask, hget] at hnone
    dsimp only at hnone
    rw [if_pos hpasses] at hnone
    cases hnone
  | none =>
    exact (selectTask_idle hdefault runId).imp (fun _ h => h) (fun _ _ h hnone _ => .nothing (h hnone))
      fun _ _ h => h

/-- **The cycle under its lease.** -/
theorem runUnderLease_idle (hdefault : rt.replacesTaskManager = false) (runId : String)
    (options : Runtime.RunCycleOptions) :
    Act.Triple (amidRules rt) (Unmoved rt start) (rt.runUnderLease runId options)
      (fun result _ => ∀ record,
        result.Truthful rt.config.workflow start record (presentText options.forcedTaskId))
      (fun _ _ => True) := by
  have hsteady : ∀ {α : Type} {m : Action α}, Does OpKind.steady m →
      Act.Triple (amidRules rt) (Unmoved rt start) m (fun _ => Unmoved rt start)
        (fun _ _ => True) := fun hm =>
    (steady_spec hm Attempt.interim_untouched).free.imp (fun _ h => h) (fun _ _ h => h)
      fun _ _ _ => trivial
  have hread : Act.Triple (amidRules rt) (Unmoved rt start) (request .readState)
      (fun state c => Unmoved rt start c ∧ start.Beside state) (fun _ _ => True) :=
    readCopy_spec.free.imp (fun _ h => h) (fun _ _ h => h) fun _ _ _ => trivial
  -- Without a choice the forced task is not executable, or no task is.
  have hchoose := fun {state : ProjectState} (hstate : start.Beside state) =>
    choose_idle hdefault hstate runId (presentText options.forcedTaskId)
  unfold Runtime.runUnderLease
  refine Act.Triple.bind (hsteady (does_request (o := .requireValid) (by exact trivial)))
    fun _ => ?_
  refine Act.Triple.bind hread fun state => ?_
  generalize assertProjectState state = valid
  generalize hstop : shouldStopRun state rt.config.workflow = stop
  refine Act.Triple.pull fun hstate => ?_
  refine Act.Triple.bind (hsteady (does_ofExcept valid)) fun _ => ?_
  cases stop with
  | some reason =>
    refine Act.Triple.bind (hsteady (does_request (o := .randomUUID) (by exact trivial)))
      fun freshId => ?_
    exact Act.Triple.pure fun c _ _ _ => ⟨reason, rfl, idleReason_of_shouldStopRun hstate hstop⟩
  | none =>
    dsimp only
    specialize hchoose hstate
    generalize presentText options.forcedTaskId = forced at hchoose ⊢
    refine Act.Triple.bind hchoose fun choice => ?_
    cases choice with
    | none => exact Act.Triple.pure fun c hc record _ => ⟨_, rfl, hc rfl record⟩
    | some handle =>
      -- A result of a run in a workspace is about its task.
      refine (returns_runInWorkspace rt handle runId).triple.imp (fun _ h => h) ?_ fun _ _ h => h
      intro result c htask record hnone
      rw [htask] at hnone
      cases hnone

/-- **An idle result tells the truth.** -/
theorem runCycle_idle (hdefault : rt.replacesTaskManager = false)
    (options : Runtime.RunCycleOptions) :
    Act.Triple (amidRules rt)
      (fun c => Shown rt.config.workflow start .untouched c.1.store.current) (rt.runCycle options)
      (fun result c =>
        result.Truthful rt.config.workflow start c.2 (presentText options.forcedTaskId))
      (fun _ _ => True) := by
  have hshown : ∀ {o : Op}, o.kind.steady →
      Act.Triple (amidRules rt)
        (fun c => Shown rt.config.workflow start .untouched c.1.store.current) (request o)
        (fun _ c => Shown rt.config.workflow start .untouched c.1.store.current)
        (fun _ _ => True) := fun ho =>
    (stable_shown.keeps_request ho).free.imp (fun _ h => h) (fun _ _ h => h) fun _ _ _ => trivial
  refine Act.Triple.bind (hshown (by exact trivial)) fun _ => ?_
  refine Act.Triple.bind (hshown (o := .randomUUID) (by exact trivial)) fun runId => ?_
  refine Act.Triple.bind (load_attempt.free.imp (fun _ h => h) (fun _ _ h => h)
    fun _ _ _ => trivial) fun _ => ?_
  -- A refused lease stands in the record, and is the reason of the locked result.
  have hacquire : Act.Triple (amidRules rt) (Unmoved rt start) (request .acquireRunLease)
      (fun acquired c => Unmoved rt start c ∧
        (acquired = false → c.2.any refusesLease = true)) (fun _ _ => True) := by
    refine triple_request (fun _ _ => trivial) fun c x c' hc he => ?_
    have hnext : Unmoved rt start c' := hc.effect (by exact trivial) he.1
    cases x with
    | error error => trivial
    | ok acquired =>
      refine ⟨hnext, fun hrefused => ?_⟩
      rw [he.2, hrefused]
      rfl
  refine Act.Triple.bind hacquire fun acquired => ?_
  split
  · next hrefused =>
    have hfalse : acquired = false := by
      cases acquired
      · rfl
      · cases hrefused
    exact Act.Triple.pure fun c hc _ => ⟨_, rfl, .locked (hc.2 hfalse)⟩
  -- The release comes after the result and cannot change it.
  · have hrelease : ∀ p : Prop, Act.Triple (amidRules rt) (fun _ => p)
        (Act.ignoring (request .release)) (fun _ _ => p) (fun _ _ => True) := by
      intro p
      refine Act.Triple.ignoring (triple_request (fun _ _ => trivial) fun c x c' hc _ => ?_)
      cases x <;> exact hc
    have hunder : Act.Triple (amidRules rt) (fun c => Unmoved rt start c ∧
        (acquired = false → c.2.any refusesLease = true)) (rt.runUnderLease runId options)
        (fun result _ => ∀ record,
          result.Truthful rt.config.workflow start record (presentText options.forcedTaskId))
        (fun _ _ => True) :=
      (runUnderLease_idle hdefault runId options).imp (fun _ h => h.1) (fun _ _ h => h)
        fun _ _ h => h
    exact (Act.Triple.finallyDo hunder (fun _ => hrelease _) fun _ => hrelease _).imp
      (fun _ h => h) (fun _ c h => h c.2) fun _ _ h => h

theorem runSingleTask_idle (hdefault : rt.replacesTaskManager = false) (taskId : String) :
    Act.Triple (amidRules rt)
      (fun c => Shown rt.config.workflow start .untouched c.1.store.current)
      (rt.runSingleTask taskId)
      (fun result c => result.Truthful rt.config.workflow start c.2 (presentText (some taskId)))
      (fun _ _ => True) := by
  have hload : Act.Triple (amidRules rt)
      (fun c => Shown rt.config.workflow start .untouched c.1.store.current) (request .load)
      (fun _ => Unmoved rt start) (fun _ _ => True) :=
    load_attempt.free.imp (fun _ h => h) (fun _ _ h => h) fun _ _ _ => trivial
  have hread : Act.Triple (amidRules rt) (Unmoved rt start) (request .readState)
      (fun _ => Unmoved rt start) (fun _ _ => True) :=
    readCopy_spec.free.imp (fun _ h => h) (fun _ _ h => h.1) fun _ _ _ => trivial
  have hrefuse : ∀ error : RuntimeError, Act.Triple (amidRules rt) (Unmoved rt start)
      (throw error : Action RunCycleResult)
      (fun result c => result.Truthful rt.config.workflow start c.2 (presentText (some taskId)))
      (fun _ _ => True) := fun _ => Act.Triple.throw fun _ _ => trivial
  unfold Runtime.runSingleTask
  refine Act.Triple.bind hload fun _ => Act.Triple.bind hread fun state => ?_
  generalize assertProjectState state = valid
  refine Act.Triple.bind ((Act.keeps_ofExcept valid).imp (fun _ h => h) (fun _ _ h => h)
    fun _ _ _ => trivial) fun _ => ?_
  split
  · exact hrefuse _
  -- A task that is done, blocked or not executable is refused before any cycle.
  split_ifs
  · exact hrefuse _
  · exact hrefuse _
  · exact hrefuse _
  · exact (runCycle_idle hdefault _).imp (fun _ h => h.shown) (fun _ _ h => h) fun _ _ h => h

end Idle

end AiOrchestrator
