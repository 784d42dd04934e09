import AiOrchestrator.Results.Histories

/-!
# Replayed failures

A replay makes the task of a dead-lettered failure the active one, for the next cycle to go on with. But
a failure is dead-lettered only when the retries of its task are used up, and they stay used up
(`LettersUsedUp`), while a cycle stops before anything else for an active task without retries left.
So a replay wedges the project by that task (`replay_wedges`): from then on no cycle selects a task, calls a role, or
writes to the store (`wedged_store_stops`), whatever else could be executed.
-/

namespace AiOrchestrator

open ProjectState

/-! ### Dead letters -/

/-- **Dead letters are used up**: every dead-lettered failure is of a task without retries left. -/
def ProjectState.LettersUsedUp (maxRetriesPerTask : Nat) (state : ProjectState) : Prop :=
  ∀ failure ∈ state.failures, failure.statusOrDefault = .deadLettered →
    maxRetriesPerTask ≤ state.retryCount failure.taskId

/-- What marks a failure leaves the others. -/
theorem ProjectState.mem_modifyFailure {state : ProjectState} {failureId : String}
    {f : FailureRecord → FailureRecord} {failure : FailureRecord}
    (h : failure ∈ (state.modifyFailure failureId f).failures) :
    failure ∈ state.failures ∨ ∃ marked ∈ state.failures, failure = f marked := by
  unfold modifyFailure at h
  dsimp only at h
  split at h
  · next i hi =>
    obtain ⟨j, hj⟩ := List.mem_iff_getElem?.mp h
    rw [List.getElem?_modify] at hj
    obtain ⟨found, hfound, heq⟩ := Option.map_eq_some_iff.mp hj
    have hmem := List.mem_of_getElem? hfound
    split at heq
    · exact Or.inr ⟨found, hmem, heq.symm⟩
    · exact Or.inl (heq ▸ hmem)
  · exact Or.inl h

section

variable {limits : RunLimits} {start current : ProjectState} {results : List RunCycleResult}

/-- An operator's outcome makes no dead letters. -/
theorem letters_of_byOperator {state state' : ProjectState} {kind : OutcomeKind}
    (hkind : kind.ByOperator) (hconsistent : state.Consistent) (h : Outcome kind state state')
    {failure : FailureRecord} (hmem : failure ∈ state'.failures)
    (hletter : failure.statusOrDefault = .deadLettered) : failure ∈ state.failures := by
  cases h with
  | recorded hrec => exact hrec.book.failures ▸ hmem
  | @resumed _ resumed _ failureId now letter hok hrec =>
    have hresumed : failure ∈ (state.modifyFailure failureId fun failure =>
        { failure with status := some .resumed, resumedAt := some now }).failures := by
      obtain ⟨-, -, ⟨task, -, -, -, rfl⟩ | rfl⟩ := resumeFailure_cases hconsistent hok
      · exact hrec.book.failures ▸ hmem
      · exact hrec.book.failures ▸ hmem
    rcases mem_modifyFailure hresumed with hfound | ⟨marked, -, rfl⟩
    · exact hfound
    · cases hletter
  | @replayed _ replayed _ failureId now letter hok hrec =>
    have hreplayed : failure ∈ (state.modifyFailure failureId fun failure =>
        { failure with status := some .replayed, replayedAt := some now }).failures := by
      obtain ⟨-, -, rfl⟩ := replayFromFailureCheckpoint_cases hok
      exact hrec.book.failures ▸ hmem
    rcases mem_modifyFailure hreplayed with hfound | ⟨marked, -, rfl⟩
    · exact hfound
    · cases hletter
  | failed | completed | split | blocked | markedDone => exact hkind.elim

/-- Operators' actions keep dead letters used up. -/
theorem Accounted.lettersUsedUp (h : Accounted start current) (hvalid : start.Valid)
    (hconsistent : start.Consistent) {maxRetriesPerTask : Nat}
    (hletters : start.LettersUsedUp maxRetriesPerTask) :
    current.LettersUsedUp maxRetriesPerTask := by
  obtain ⟨-, hcount⟩ := h.completed hvalid hconsistent
  obtain ⟨-, hcurrent⟩ := h.outcomes.run hvalid hconsistent
  have hold : ∀ failure ∈ current.failures, failure.statusOrDefault = .deadLettered →
      failure ∈ start.failures := by
    obtain ⟨houtcomes, -⟩ := h
    clear hcount hcurrent
    induction houtcomes with
    | refl => exact fun _ hmem _ => hmem
    | tail hrun hstep ih =>
      obtain ⟨kind, hkind, houtcome⟩ := hstep
      obtain ⟨-, hmiddle⟩ := Outcomes.run hrun hvalid hconsistent
      exact fun failure hmem hletter =>
        ih failure (letters_of_byOperator hkind hmiddle houtcome hmem hletter) hletter
  intro failure hmem hletter
  rw [hcurrent.retry_eq, hcount, ← hconsistent.retry_eq]
  exact hletters failure (hold failure hmem hletter) hletter

/-- So do attempts: a failure that they dead-letter is the last one that its task may have. -/
theorem Shown.lettersUsedUp {attempt : Attempt} (h : Shown limits start attempt current)
    (hvalid : start.Valid) (hconsistent : start.Consistent)
    (hletters : start.LettersUsedUp limits.maxRetriesPerTask) :
    current.LettersUsedUp limits.maxRetriesPerTask := by
  obtain ⟨-, hcurrent⟩ := (h.outcomes hvalid hconsistent).run hvalid hconsistent
  have hcount : ∀ id, current.retryCount id =
      start.retryCount id + if attempt.fails? = some id then 1 else 0 := by
    intro id
    rw [hcurrent.retry_eq, h.beside.book.failureCount, Attempt.failureCount_apply,
      hconsistent.retry_eq]
  have hcounted : ∀ {handle : TaskHandle} {failure : FailureRecord},
      Attempt.FailureOf limits.maxRetriesPerTask start handle failure →
      attempt.fails? = some failure.taskId →
      failure.statusOrDefault = .deadLettered →
        limits.maxRetriesPerTask ≤ current.retryCount failure.taskId := by
    intro handle failure hof hfails hletter
    have hnot : ¬ start.retryCount handle.task.id + 1 < limits.maxRetriesPerTask := by
      intro hbelow
      have hretry := Attempt.verdict_retry_iff.mpr hbelow
      rw [hof.letter.mp hletter] at hretry
      cases hretry
    rw [hcount, if_pos hfails, hof.task]
    exact Nat.le_of_not_lt hnot
  intro failure hmem hletter
  rw [h.beside.book.failures, Attempt.failures_apply] at hmem
  have hold : failure ∈ start.failures →
      limits.maxRetriesPerTask ≤ current.retryCount failure.taskId := by
    intro hfound
    rw [hcount]
    exact (hletters failure hfound hletter).trans (Nat.le_add_right _ _)
  cases h.justified with
  | untouched | completed => exact hold hmem
  | failed _ _ hof | split _ _ hof _ | blocked _ _ hof _ =>
    rcases List.mem_append.mp hmem with hfound | hnew
    · exact hold hfound
    · obtain rfl := List.mem_singleton.mp hnew
      exact hcounted hof rfl hletter

/-- **In every history dead letters are used up.** -/
theorem History.lettersUsedUp (h : History limits True start results current)
    (hvalid : start.Valid) (hconsistent : start.Consistent)
    (hletters : start.LettersUsedUp limits.maxRetriesPerTask) :
    current.LettersUsedUp limits.maxRetriesPerTask := by
  induction h with
  | begin => exact hletters
  | cycle earlier rt hlimits request hrun hchoice ih =>
    obtain ⟨hbefore, hbeforeConsistent⟩ := earlier.keeps hvalid hconsistent
    obtain ⟨attempt, hshown, -⟩ := request.shown hbefore hrun hchoice
    rw [hlimits] at hshown
    exact hshown.lettersUsedUp hbefore hbeforeConsistent ih
  | operate earlier _ host action hrun ih =>
    obtain ⟨hbefore, hbeforeConsistent⟩ := earlier.keeps hvalid hconsistent
    exact (operate_refines_outcomes host action hbefore hrun).lettersUsedUp hbefore
      hbeforeConsistent ih

/-! ### Wedged projects -/

/-- **Wedged by a task**: it is the active one, and has no retries left. -/
structure ProjectState.WedgedBy (maxRetriesPerTask : Nat) (state : ProjectState) (taskId : String) :
    Prop where
  active : state.execution.activeTaskId = some taskId
  named : taskId ≠ ""
  counted : state.RetryCounted taskId
  used : maxRetriesPerTask ≤ state.retryCount taskId

/-- **Wedged**: the active task has no retries left. -/
def ProjectState.Wedged (maxRetriesPerTask : Nat) (state : ProjectState) : Prop :=
  ∃ taskId, state.WedgedBy maxRetriesPerTask taskId

/-- A task on record has a retry count. -/
theorem ProjectState.Consistent.retryCounted {state : ProjectState} (h : state.Consistent)
    {failure : FailureRecord} (hmem : failure ∈ state.failures) :
    state.RetryCounted failure.taskId := by
  refine retryCounted_of_pos ?_
  rw [h.retry_eq]
  exact List.countP_pos_iff.mpr ⟨failure, hmem, decide_eq_true rfl⟩

end

namespace ProjectState

/-- A failure of the one task. -/
def spentFailure (id : String) (status : FailureStatus) : FailureRecord where
  id := id
  taskId := "T-1"
  role := .coder
  reason := "The tests fail"
  symptoms := []
  badPatterns := []
  retrySuggested := true
  status := some status
  checkpointRunId := some "run-1"
  checkpointStepId := some "step-1"
  deadLetteredAt := none
  resumedAt := none
  replayedAt := none
  createdAt := "2024-01-01T00:00:00.000Z"

/-- The project of one task after its second failure. -/
def spentTask : ProjectState :=
  (oneTask.countFailure (spentFailure "f-1" .retryable)).countFailure
    (spentFailure "f-2" .deadLettered)

/-- The project after a replay of that failure. -/
def replayedTask : ProjectState :=
  match spentTask.replayFromFailureCheckpoint "f-2" "2024-01-02T00:00:00.000Z" with
  | .ok (replayed, _) => replayed
  | .error _ => spentTask

end ProjectState

/-- The operations that neither handle a task nor write. -/
def Op.waits : Op → Prop
  | .updateShared _ | .randomUUID | .load | .acquireRunLease | .requireValid | .readState
  | .release => True
  | _ => False

/-- **The effect of an operation** on a store that others leave wedged. -/
def Op.amidWedged (maxRetriesPerTask : Nat) (host : Host) : Prog.Eff Op Op.Ans World :=
  fun o w x w' => ∃ answer store, store.current.Wedged maxRetriesPerTask ∧
    Op.handle host answer o { w with store := store } = (x, w')

/-- The rules of a cycle that waits. -/
def waitingRules (host : Host) (limits : RunLimits) : Prog.Rules Op Op.Ans Observed where
  allowed o _ := o.waits
  effect := Prog.recorded (Op.amidWedged limits.maxRetriesPerTask host)

/-- **Stopped**: the result is about no task. -/
structure RunCycleResult.Stopped (result : RunCycleResult) : Prop where
  task : result.taskId = none
  status : result.status = .idle
  reason : result.stopReason = some "run_lock_unavailable" ∨
    result.stopReason = some "max_steps_per_run_reached" ∨
    result.stopReason = some "max_retries_reached"

theorem shouldStopRun_of_wedged {state : ProjectState} {limits : RunLimits}
    (h : state.Wedged limits.maxRetriesPerTask) :
    shouldStopRun state limits = some "max_steps_per_run_reached" ∨
      shouldStopRun state limits = some "max_retries_reached" := by
  obtain ⟨taskId, hactive, hne, hcounted, hused⟩ := h
  unfold shouldStopRun
  split
  · exact Or.inl rfl
  · rw [hactive]
    exact Or.inr (if_pos ⟨hne, hcounted, hused⟩)

section

variable {rt : Runtime}

/-- The copy is wedged. -/
def HoldsWedged (rt : Runtime) (c : Observed) : Prop :=
  c.1.state.Wedged rt.config.workflow.maxRetriesPerTask

theorem wait_spec {o : Op} (ho : o.waits) (I : Prop) :
    Act.Triple (waitingRules rt.host rt.config.workflow) (fun _ => I) (request o)
      (fun _ _ => I) (fun _ _ => True) := by
  refine triple_request (fun _ _ => ho) fun c x c' hc he => ?_
  cases x with
  | error error => trivial
  | ok result => exact hc

/-- Waiting keeps the copy. -/
theorem holds_spec {o : Op} (ho : o.waits) (hload : o ≠ .load) :
    Act.Triple (waitingRules rt.host rt.config.workflow) (HoldsWedged rt) (request o)
      (fun _ => HoldsWedged rt) (fun _ _ => True) := by
  refine triple_request (fun _ _ => ho) fun c x c' hc he => ?_
  cases x with
  | error error => trivial
  | ok result =>
    obtain ⟨⟨answer, store, -, heq⟩, -⟩ := he
    have hflush : o ≠ .flush := by
      rintro rfl
      exact ho
    have hupdate : ∀ u, o ≠ .update u := by
      rintro u rfl
      exact ho
    obtain ⟨revision, hcopy⟩ :=
      copy_of_handle rt.host answer { c.1 with store := store } hload hflush hupdate
    rw [heq] at hcopy
    show c'.1.state.Wedged rt.config.workflow.maxRetriesPerTask
    rw [hcopy]
    obtain ⟨taskId, hactive, hnamed, hcounted, hused⟩ := hc
    exact ⟨taskId, hactive, hnamed, hcounted, hused⟩

/-- What is loaded is wedged. -/
theorem load_wedged :
    Act.Triple (waitingRules rt.host rt.config.workflow) (fun _ => True) (request .load)
      (fun _ => HoldsWedged rt) (fun _ _ => True) := by
  refine triple_request (fun _ _ => trivial) fun c x c' hc he => ?_
  obtain ⟨⟨answer, store, hwedged, heq⟩, -⟩ := he
  simp only [Op.handle, Answer.fallible] at heq
  split at heq
  · obtain ⟨rfl, -⟩ := Prod.mk.inj heq
    trivial
  · obtain ⟨rfl, hw⟩ := Prod.mk.inj heq
    show c'.1.state.Wedged rt.config.workflow.maxRetriesPerTask
    rw [← hw]
    exact hwedged

theorem readState_wedged :
    Act.Triple (waitingRules rt.host rt.config.workflow) (HoldsWedged rt) (request .readState)
      (fun state c => HoldsWedged rt c ∧ state.Wedged rt.config.workflow.maxRetriesPerTask)
      (fun _ _ => True) := by
  refine triple_request (fun _ _ => trivial) fun c x c' hc he => ?_
  obtain ⟨⟨answer, store, -, heq⟩, -⟩ := he
  obtain ⟨rfl, hw⟩ := Prod.mk.inj heq
  refine ⟨?_, hc⟩
  show c'.1.state.Wedged rt.config.workflow.maxRetriesPerTask
  rw [← hw]
  exact hc

/-- Under its lease a cycle stops. -/
theorem runUnderLease_waits (runId : String) (options : Runtime.RunCycleOptions) :
    Act.Triple (waitingRules rt.host rt.config.workflow) (HoldsWedged rt)
      (rt.runUnderLease runId options) (fun result _ => result.Stopped) (fun _ _ => True) := by
  have hassert : ∀ {state : ProjectState} (r : Except RuntimeError Unit),
      Act.Triple (waitingRules rt.host rt.config.workflow)
        (fun c => HoldsWedged rt c ∧ state.Wedged rt.config.workflow.maxRetriesPerTask)
        (Act.ofExcept r : Action Unit)
        (fun _ c => HoldsWedged rt c ∧ state.Wedged rt.config.workflow.maxRetriesPerTask)
        (fun _ _ => True) := fun r =>
    (Act.keeps_ofExcept r).imp (fun _ h => h) (fun _ _ h => h) fun _ _ _ => trivial
  unfold Runtime.runUnderLease
  refine Act.Triple.bind (holds_spec (o := .requireValid) (by exact trivial) (by simp))
    fun _ => ?_
  refine Act.Triple.bind readState_wedged fun state => ?_
  generalize assertProjectState state = valid
  refine Act.Triple.bind (hassert valid) fun _ => ?_
  generalize hstop : shouldStopRun state rt.config.workflow = stop
  refine Act.Triple.pull fun hwedged => ?_
  have hstops := shouldStopRun_of_wedged hwedged
  rw [hstop] at hstops
  cases stop with
  | none => rcases hstops with h | h <;> cases h
  | some reason =>
    refine Act.Triple.bind (holds_spec (o := .randomUUID) (by exact trivial) (by simp))
      fun freshId => ?_
    exact Act.Triple.pure fun _ _ => ⟨rfl, rfl, Or.inr hstops⟩

theorem runCycle_waits (options : Runtime.RunCycleOptions) :
    Act.Triple (waitingRules rt.host rt.config.workflow) (fun _ => True) (rt.runCycle options)
      (fun result _ => result.Stopped) (fun _ _ => True) := by
  refine Act.Triple.bind (wait_spec (o := .updateShared .resetRun) (by exact trivial) True)
    fun _ => ?_
  refine Act.Triple.bind (wait_spec (o := .randomUUID) (by exact trivial) True) fun runId => ?_
  refine Act.Triple.bind load_wedged fun _ => ?_
  refine Act.Triple.bind (holds_spec (o := .acquireRunLease) (by exact trivial) (by simp))
    fun acquired => ?_
  split
  · exact Act.Triple.pure fun _ _ => ⟨rfl, rfl, Or.inl rfl⟩
  · have hrelease : ∀ I : Prop, Act.Triple (waitingRules rt.host rt.config.workflow) (fun _ => I)
        (Act.ignoring (request .release)) (fun _ _ => I) (fun _ _ => True) := by
      intro I
      refine Act.Triple.ignoring ?_
      exact triple_request (fun _ _ => trivial) fun c x c' hc he => by cases x <;> exact hc
    exact Act.Triple.finallyDo (runUnderLease_waits runId options)
      (fun _ => hrelease _) fun _ => hrelease True

theorem CycleRequest.waits (request : CycleRequest) :
    Act.Triple (waitingRules rt.host rt.config.workflow) (fun _ => True) (request.program rt)
      (fun result _ => result.Stopped) (fun _ _ => True) := by
  cases request with
  | runCycle options => exact runCycle_waits options
  | runSingleTask taskId =>
    have hrefuse : ∀ error : RuntimeError, Act.Triple (waitingRules rt.host rt.config.workflow)
        (HoldsWedged rt) (throw error : Action RunCycleResult) (fun result _ => result.Stopped)
        (fun _ _ => True) := fun _ => Act.Triple.throw fun _ _ => trivial
    show Act.Triple _ _ (rt.runSingleTask taskId) _ _
    unfold Runtime.runSingleTask
    refine Act.Triple.bind load_wedged fun _ => ?_
    refine Act.Triple.bind (holds_spec (o := .readState) (by exact trivial) (by simp))
      fun state => ?_
    generalize assertProjectState state = valid
    refine Act.Triple.bind ((Act.keeps_ofExcept valid).imp (fun _ h => h) (fun _ _ h => h)
      fun _ _ _ => trivial) fun _ => ?_
    split
    · exact hrefuse _
    split_ifs
    · exact hrefuse _
    · exact hrefuse _
    · exact hrefuse _
    · exact (runCycle_waits _).imp (fun _ _ => trivial) (fun _ _ h => h) fun _ _ h => h

/-- **No cycle moves a wedged project**: as long as others leave the store wedged, every operation of
every cycle reads, draws an id or handles the lease, at every moment; so no task is handled and nothing
is written. A result is about no task, and says that the cycle had to stop. -/
theorem wedged_store_stops (request : CycleRequest) {w : World}
    {q : Prog Op Op.Ans (Except RuntimeError RunCycleResult)} {c : Observed}
    (hrun : Prog.Path
      (Prog.recorded (Op.amidWedged rt.config.workflow.maxRetriesPerTask rt.host))
      ((request.program rt).run, (w, [])) (q, c)) :
    (∀ e ∈ c.2, e.op.waits) ∧
      ∀ result, cameTo q = some (.ok result) → result.Stopped := by
  have hspec := @CycleRequest.waits rt request (w, []) trivial
  constructor
  · obtain ⟨events, hevents, hall⟩ := Prog.wp_events rfl hspec hrun
    rw [List.append_nil] at hevents
    intro e hmem
    obtain ⟨later, earlier, hsplit⟩ := List.append_of_mem hmem
    exact hall later e earlier (hevents.symm.trans hsplit)
  · have hhere := Prog.wp_path hspec hrun
    intro result hcame
    cases q with
    | ask o k => cases hcame
    | ret outcome =>
      cases hcame
      exact hhere

end

namespace Runtime

theorem replayedTask_wedged : replayedTask.Wedged staticRuntime.config.workflow.maxRetriesPerTask :=
  ⟨"T-1", rfl, by decide, by decide, by decide⟩

/-- A handler that finds the replayed project at every operation. -/
def wedgedHandle (o : Op) (w : World) : o.Ans × World :=
  Op.handle staticRuntime.host (doneAnswer o w) o
    { w with store := (sampleWorld replayedTask).store }

/-- A cycle of the replayed project. -/
def stoppedCycle : Except RuntimeError RunCycleResult × Observed :=
  Prog.exec (Prog.recording wedgedHandle) (staticRuntime.runCycle {}).run
    (sampleWorld replayedTask, [])

theorem stoppedCycle_path :
    Prog.Path (Prog.recorded
        (Op.amidWedged staticRuntime.config.workflow.maxRetriesPerTask staticRuntime.host))
      ((CycleRequest.program staticRuntime (.runCycle {})).run, (sampleWorld replayedTask, []))
      (.ret stoppedCycle.1, stoppedCycle.2) :=
  Prog.path_recording
    (fun o w => ⟨doneAnswer o w, (sampleWorld replayedTask).store, replayedTask_wedged, rfl⟩) _ _

/-- It comes to a result. -/
theorem stoppedCycle_stops :
    (stoppedCycle.1.toOption.map RunCycleResult.stopReason) =
      some (some "max_retries_reached") := by
  decide +kernel

end Runtime

/-- The cycle of the replayed project stops. -/
theorem wedged_store_stops_replayed :
    ∃ result, Runtime.stoppedCycle.1 = .ok result ∧ result.Stopped := by
  obtain ⟨-, hstopped⟩ := wedged_store_stops (.runCycle {}) Runtime.stoppedCycle_path
  have hresult := Runtime.stoppedCycle_stops
  cases hcycle : Runtime.stoppedCycle.1 with
  | error error =>
    rw [hcycle] at hresult
    cases hresult
  | ok result => exact ⟨result, rfl, hstopped result (congrArg some hcycle)⟩

end AiOrchestrator
