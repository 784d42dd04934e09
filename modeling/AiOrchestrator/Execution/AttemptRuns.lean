import AiOrchestrator.Execution.Selection
import AiOrchestrator.Workflow.Attempts

/-!
# Cycles as attempts

The cycles of `Execution.Orchestrator` refine the attempts of `Workflow.Attempts`. The proof follows a
cycle with two attempts at hand (`Stage`): the one that the store shows, and the one that the cycle's
own copy of the state is ahead to. Most operations change neither (`OpKind.steady`); a counted
failure moves the store, the assignments of a verdict move the copy, and a save brings the store to where
the copy is (`save_stage`). At every moment the store shows one attempt (`attemptRules`), and what a
cycle returns reports it (`runCycle_attempt`).

Other clients may record things on the side meanwhile (`Op.amidRecords`), but do not change the
bookkeeping.
-/

namespace AiOrchestrator

open ProjectState

theorem Act.uses_any {ε Op α : Type} {Ans : Op → Type} (m : Act ε Op Ans α) :
    Act.Uses (fun _ => True) m := by
  have hall : ∀ p : Prog Op Ans (Except ε α), p.Uses fun _ => True := by
    intro p
    induction p with
    | ret a => trivial
    | ask o k ih => exact ⟨trivial, ih⟩
  exact hall m.run

theorem stepCount_lt_of_shouldStopRun {state : ProjectState} {limits : RunLimits}
    (h : shouldStopRun state limits = none) : state.execution.stepCount < limits.maxStepsPerRun := by
  unfold shouldStopRun at h
  split at h
  · cases h
  · next hsteps => exact Nat.lt_of_not_le hsteps

/-! ### Operations beside the work -/

/-- The kinds of operations that leave the bookkeeping of the copy and of the store as it is. -/
def OpKind.steady : OpKind → Prop
  | .save | .fail | .verdict | .load => False
  | _ => True

theorem OpKind.steady_of_plain {kind : OpKind} (h : kind.plain) : kind.steady := by
  cases kind <;> trivial

theorem ProjectState.beside_atRevision (state : ProjectState) (revision : Nat) :
    state.Beside (state.atRevision revision) :=
  ⟨⟨rfl, rfl, rfl, rfl, rfl⟩, ⟨rfl, rfl, rfl, rfl, rfl, rfl⟩, fun _ h => h, rfl⟩

theorem ProjectState.Beside.atRevision {state state' : ProjectState} (h : state.Beside state')
    (revision : Nat) : state.Beside (state'.atRevision revision) :=
  h.trans (beside_atRevision state' revision)

/-- The checks on a state do not look at its revision. -/
theorem ProjectState.Valid.atRevision {state : ProjectState} (h : state.Valid) (revision : Nat) :
    (state.atRevision revision).Valid := by
  refine validateProjectState_eq_nil_iff.mp ?_
  exact (InMemoryStateStore.validateProjectState_revision state revision).trans
    (validateProjectState_eq_nil_iff.mpr h)

/-- **Assignments on the side.** -/
theorem Update.beside_of_assign {u : Update} (hkind : u.kind = .assign) (state : ProjectState) :
    state.Beside (u.apply state) := by
  cases u with
  | select runId taskId | pushPolicyDecision decision | pushApproval req | pushDecision decision
  | finalize key nowIso status policyDecisionId | repoHealth stages passed =>
    exact ⟨⟨rfl, rfl, rfl, rfl, rfl⟩, ⟨rfl, rfl, rfl, rfl, rfl, rfl⟩, fun _ h => h, rfl⟩
  | pushArtifact artifact =>
    exact ⟨⟨rfl, rfl, rfl, rfl, rfl⟩, ⟨rfl, rfl, rfl, rfl, rfl, rfl⟩,
      fun _ h => List.mem_append_left _ h, rfl⟩
  | reserve key leaseOwner nowIso ttlMs =>
    simp only [Update.apply]
    split
    · exact ⟨⟨rfl, rfl, rfl, rfl, rfl⟩, ⟨rfl, rfl, rfl, rfl, rfl, rfl⟩, fun _ h => h, rfl⟩
    · exact Beside.refl state
  | complete | noteFailure | split | block | resumeFailure | replayFailure | setApproval =>
    cases hkind

/-- **Records in the store**, accepted by it. -/
theorem StoreCall.beside_of_apply {host : Host} {id createdAt : String} {state state' : ProjectState}
    {store store' : Store} {call : StoreCall} {result : call.Result}
    (hsave : call.kind ≠ .save) (hfail : call.kind ≠ .fail)
    (h : call.apply host id createdAt state store = .ok (result, state', store')) :
    store.current.Beside store'.current ∧ (store.current.Valid → store'.current.Valid) := by
  cases call with
  | save events => exact absurd rfl hsave
  | recordFailure input => exact absurd rfl hfail
  | recordEvent event =>
    cases h
    exact ⟨Beside.refl _, fun h => h⟩
  | recordArtifact artifact =>
    obtain ⟨next, hnext, heq⟩ := Except.bind_ok_iff.mp h
    cases heq
    obtain ⟨-, hcommit⟩ := InMemoryStateStore.recordArtifact_ok_iff.mp hnext
    obtain ⟨hvalid, -, rfl⟩ := InMemoryStateStore.commitSnapshot_ok_iff.mp hcommit
    refine ⟨Beside.atRevision ?_ _, fun _ => ?_⟩
    · unfold InMemoryStateStore.addArtifact
      split
      · exact Beside.refl _
      · exact ⟨⟨rfl, rfl, rfl, rfl, rfl⟩, ⟨rfl, rfl, rfl, rfl, rfl, rfl⟩,
          fun _ h => List.mem_append_left _ h, rfl⟩
    · exact hvalid.atRevision _
  | recordPolicyDecision decision =>
    obtain ⟨next, hnext, heq⟩ := Except.bind_ok_iff.mp h
    cases heq
    obtain ⟨hvalid, -, rfl⟩ := InMemoryStateStore.commitSnapshot_ok_iff.mp hnext
    refine ⟨Beside.atRevision ?_ _, fun _ => ?_⟩
    · exact ⟨⟨rfl, rfl, rfl, rfl, rfl⟩, ⟨rfl, rfl, rfl, rfl, rfl, rfl⟩, fun _ h => h, rfl⟩
    · exact hvalid.atRevision _
  | recordRunStep step =>
    obtain ⟨next, hnext, heq⟩ := Except.bind_ok_iff.mp h
    cases heq
    obtain ⟨rfl, hvalid⟩ := InMemoryStateStore.recordRunStep_ok hnext
    refine ⟨?_, fun _ => hvalid⟩
    exact ⟨⟨rfl, rfl, rfl, rfl, rfl⟩, ⟨rfl, rfl, rfl, rfl, rfl, rfl⟩, fun _ h => h, rfl⟩

/-- A flush appends to the step log alone. -/
theorem beside_flushToState (shared : Shared) (state : ProjectState) :
    state.Beside (flushToState shared state).1 := by
  obtain ⟨steps, revision, heq⟩ := flushToState_copy shared state
  rw [heq]
  exact ⟨⟨rfl, rfl, rfl, rfl, rfl⟩, ⟨rfl, rfl, rfl, rfl, rfl, rfl⟩, fun _ h => h, rfl⟩

/-- What a steady operation does to the store, on its content. -/
theorem store_of_handle (host : Host) (answer : Answer) {o : Op} (ho : o.kind.steady) (w : World) :
    w.store.current.Beside (Op.handle host answer o w).2.store.current ∧
      (w.store.current.Valid → (Op.handle host answer o w).2.store.current.Valid) := by
  have hsame : w.store.current.Beside w.store.current ∧
      (w.store.current.Valid → w.store.current.Valid) := ⟨Beside.refl _, id⟩
  cases o with
  | write call =>
    simp only [Op.handle, Answer.fallible]
    split
    · exact hsame
    · split
      · next happly =>
        refine StoreCall.beside_of_apply ?_ ?_ happly
        · intro hkind
          exact (hkind ▸ ho : OpKind.steady .save)
        · intro hkind
          exact (hkind ▸ ho : OpKind.steady .fail)
      · exact hsame
  | executeRole name req context =>
    simp only [Op.handle, Answer.fallible, World.markExecuted]
    split <;> split <;> exact hsame
  | executeRoleStep name req context observations =>
    simp only [Op.handle, Answer.fallible, World.markExecuted]
    split <;> split <;> exact hsame
  | now | dateNow | randomUUID | aborted | readState | selectionState | readShared | readCost
  | update u | updateShared u | flush => exact hsame
  | load | loadRevision | loadScope | getPolicyDecision query | acquireRunLease | requireValid
  | release | validateRole name response | executeTool call context | mkdtemp start | git command =>
    simp only [Op.handle, Answer.fallible]
    split <;> exact hsame

/-- And to the copy. -/
theorem copy_beside (host : Host) (answer : Answer) {o : Op} (ho : o.kind.steady) (w : World) :
    w.state.Beside (Op.handle host answer o w).2.state := by
  by_cases hflush : o = .flush
  · subst hflush
    exact beside_flushToState w.shared w.state
  by_cases hupdate : ∃ u, o = .update u
  · obtain ⟨u, rfl⟩ := hupdate
    refine Update.beside_of_assign ?_ w.state
    cases u <;> first
      | rfl
      | exact ho.elim
  · have hload : o ≠ .load := by
      rintro rfl
      exact ho
    obtain ⟨revision, heq⟩ := copy_of_handle host answer w hload hflush
      fun u heq => hupdate ⟨u, heq⟩
    rw [heq]
    exact beside_atRevision w.state revision

/-! ### The two attempts at hand -/

/-- **What a store shows** of a cycle that began with `start`. -/
structure Shown (limits : RunLimits) (start : ProjectState) (attempt : Attempt)
    (stored : ProjectState) : Prop where
  justified : attempt.Justified limits start
  beside : (attempt.apply start).Beside stored
  accepted : stored.Valid

/-- **The stage of a cycle**: the store shows the first attempt, and the copy is ahead to the second. -/
structure Stage (limits : RunLimits) (start : ProjectState) (stored copied : Attempt) (w : World) :
    Prop where
  shown : Shown limits start stored w.store.current
  copy : (copied.apply start).Beside w.state

/-- An attempt that was broken off: no verdict has been carried out. -/
def Attempt.Interim : Attempt → Prop
  | .untouched | .failed _ _ => True
  | .split _ _ _ | .blocked _ _ | .completed _ => False

theorem Attempt.interim_untouched : Attempt.untouched.Interim := trivial

theorem Attempt.interim_failed {handle : TaskHandle} {failure : FailureRecord} :
    (Attempt.failed handle failure).Interim := trivial

/-- **What a result reports** of the attempt behind it. -/
def Attempt.ReportedBy (maxRetriesPerTask : Nat) (start : ProjectState) (result : RunCycleResult) :
    Attempt → Prop
  | .untouched => result.taskId = none ∧ result.status = .idle
  | .failed handle failure =>
    result.taskId = some handle.task.id ∧ result.status = .idle ∧
      result.stopReason = some failure.reason ∧ verdict maxRetriesPerTask start handle = .retry
  | .split handle _ _ =>
    result.taskId = some handle.task.id ∧ result.status = .idle ∧
      result.stopReason = some "task_split"
  | .blocked handle failure =>
    result.taskId = some handle.task.id ∧ result.status = .blocked ∧
      result.stopReason = some failure.reason
  | .completed handle =>
    result.taskId = some handle.task.id ∧
      (result.status = .completed ∧ result.stopReason = none ∨
        result.status = .blocked ∧ result.stopReason = some "approval_pending")

/-- **The effect of an operation** while other clients record things on the side. -/
def Op.amidRecords (host : Host) : Prog.Eff Op Op.Ans World := fun o w x w' =>
  ∃ answer store, w.store.current.Beside store.current ∧
    (w.store.current.Valid → store.current.Valid) ∧
      Op.handle host answer o { w with store := store } = (x, w')

/-- The rules of a cycle: whenever an operation is performed, the store shows an attempt. -/
def attemptRules (host : Host) (limits : RunLimits) (start : ProjectState) :
    Prog.Rules Op Op.Ans Observed where
  allowed _ c := ChoiceExecutable c.2 → ∃ attempt, Shown limits start attempt c.1.store.current
  effect := Prog.recorded (Op.amidRecords host)

section

variable {host : Host} {limits : RunLimits} {start : ProjectState} {stored copied : Attempt}

theorem Shown.trans {current next : ProjectState} (h : Shown limits start stored current)
    (hbeside : current.Beside next) (hvalid : current.Valid → next.Valid) :
    Shown limits start stored next :=
  ⟨h.justified, h.beside.trans hbeside, hvalid h.accepted⟩

theorem Shown.allowed {c : Observed} (h : Shown limits start stored c.1.store.current) (o : Op) :
    (attemptRules host limits start).allowed o c := fun _ => ⟨stored, h⟩

/-- What a steady operation leaves in the store. -/
theorem Shown.effect {o : Op} (ho : o.kind.steady) {w w' : World} {x : o.Ans}
    (h : Shown limits start stored w.store.current) (he : Op.amidRecords host o w x w') :
    Shown limits start stored w'.store.current := by
  obtain ⟨answer, store, hbeside, hvalid, heq⟩ := he
  have hfound : Shown limits start stored store.current := h.trans hbeside hvalid
  obtain ⟨hnext, hnextValid⟩ := store_of_handle host answer ho { w with store := store }
  rw [heq] at hnext hnextValid
  exact hfound.trans hnext hnextValid

theorem Stage.effect {o : Op} (ho : o.kind.steady) {w w' : World} {x : o.Ans}
    (h : Stage limits start stored copied w) (he : Op.amidRecords host o w x w') :
    Stage limits start stored copied w' := by
  refine ⟨h.shown.effect ho he, ?_⟩
  obtain ⟨answer, store, -, -, heq⟩ := he
  have hcopy := copy_beside host answer ho { w with store := store }
  rw [heq] at hcopy
  exact h.copy.trans hcopy

/-- The store shows an attempt of a sort. -/
def ShowsSome (limits : RunLimits) (start : ProjectState) (sort : Attempt → Prop) (c : Observed) :
    Prop :=
  ∃ attempt, Shown limits start attempt c.1.store.current ∧ sort attempt

/-- **Broken off**: the store shows an attempt without a verdict. -/
abbrev BrokenOff (limits : RunLimits) (start : ProjectState) : Observed → Prop :=
  ShowsSome limits start Attempt.Interim

/-- **Reported**: the store shows the attempt that the result reports. -/
abbrev Reported (limits : RunLimits) (start : ProjectState) (result : RunCycleResult) :
    Observed → Prop :=
  ShowsSome limits start (Attempt.ReportedBy limits.maxRetriesPerTask start result)

theorem stable_showsSome (sort : Attempt → Prop) :
    Stable (attemptRules host limits start) (fun o => o.kind.steady)
      (ShowsSome limits start sort) := by
  rintro o c ho ⟨attempt, hshown, hsort⟩
  exact ⟨hshown.allowed o, fun _ _ he => ⟨attempt, hshown.effect ho he.1, hsort⟩⟩

theorem Stage.showsSome {sort : Attempt → Prop} {c : Observed}
    (h : Stage limits start stored copied c.1) (hsort : sort stored) :
    ShowsSome limits start sort c :=
  ⟨stored, h.shown, hsort⟩

theorem stable_shown : Stable (attemptRules host limits start) (fun o => o.kind.steady)
    (fun c => Shown limits start stored c.1.store.current) :=
  fun o _ ho hc => ⟨hc.allowed o, fun _ _ he => hc.effect ho he.1⟩

theorem stable_stage : Stable (attemptRules host limits start) (fun o => o.kind.steady)
    (fun c => Stage limits start stored copied c.1) :=
  fun o _ ho hc => ⟨hc.shown.allowed o, fun _ _ he => hc.effect ho he.1⟩

end

/-! ### Steps -/

/-- A write that fails changes nothing. -/
theorem world_of_write_error {host : Host} {answer : Answer} {call : StoreCall} {w w' : World}
    {error : RuntimeError} (h : Op.handle host answer (.write call) w = (.error error, w')) :
    w' = w := by
  simp only [Op.handle, Answer.fallible] at h
  split at h
  · exact (Prod.mk.inj h).2.symm
  · split at h
    · cases (Prod.mk.inj h).1
    · exact (Prod.mk.inj h).2.symm

/-- A write that succeeds was applied. -/
theorem apply_of_write_ok {host : Host} {answer : Answer} {call : StoreCall} {w w' : World}
    {result : call.Result} (h : Op.handle host answer (.write call) w = (.ok result, w')) :
    call.apply host answer.uuid answer.iso w.state w.store = .ok (result, w'.state, w'.store) := by
  simp only [Op.handle, Answer.fallible] at h
  split at h
  · cases (Prod.mk.inj h).1
  · split at h
    · next result' state store happly =>
      obtain ⟨hresult, rfl⟩ := Prod.mk.inj h
      cases hresult
      exact happly
    · cases (Prod.mk.inj h).1

/-- Operations that do not fail. -/
def Op.sure : Op → Prop
  | .now | .randomUUID | .readState | .readShared | .update _ | .updateShared _ => True
  | _ => False

theorem ok_of_sure (host : Host) (answer : Answer) {o : Op} (ho : o.sure) (w : World) :
    ∃ result, (Op.handle host answer o w).1 = .ok result := by
  cases o with
  | now | randomUUID | readState | readShared | update u | updateShared u => exact ⟨_, rfl⟩
  | _ => cases ho

section Steps

variable {host : Host} {limits : RunLimits} {start : ProjectState} {stored copied : Attempt}
  {α : Type}

/-- What is steady keeps the stage. -/
theorem steady_spec {m : Action α} (hm : Act.Uses (fun o => o.kind.steady) m)
    (hinterim : stored.Interim) :
    Act.Triple (attemptRules host limits start) (fun c => Stage limits start stored copied c.1) m
      (fun _ c => Stage limits start stored copied c.1) (fun _ => BrokenOff limits start) :=
  (stable_stage.keeps hm).imp (fun _ h => h) (fun _ _ h => h) fun _ _ h => h.showsSome hinterim

/-- **An assignment** moves the copy. -/
theorem update_spec {u : Update} (moved : Attempt)
    (hmoved : ∀ state, (copied.apply start).Beside state → (moved.apply start).Beside (u.apply state)) :
    Act.Triple (attemptRules host limits start) (fun c => Stage limits start stored copied c.1)
      (request (.update u)) (fun _ c => Stage limits start stored moved c.1)
      (fun _ => BrokenOff limits start) := by
  refine triple_request (fun c hc => hc.shown.allowed _) fun c x c' hc he => ?_
  obtain ⟨⟨answer, store, hbeside, hvalid, heq⟩, -⟩ := he
  obtain ⟨rfl, hw⟩ := Prod.mk.inj heq
  show Stage limits start stored moved c'.1
  rw [← hw]
  exact ⟨hc.shown.trans hbeside hvalid, hmoved _ hc.copy⟩

/-- **A save** brings the store to where the copy is. -/
theorem save_spec (hjustified : copied.Justified limits start) (hinterim : stored.Interim)
    (events : List DomainEvent) :
    Act.Triple (attemptRules host limits start) (fun c => Stage limits start stored copied c.1)
      (saveWithEvents events) (fun _ c => Stage limits start copied copied c.1)
      (fun _ => BrokenOff limits start) := by
  refine Act.Triple.bind (steady_spec (uses_request (o := .requireValid) (by exact trivial)) hinterim)
    fun _ => ?_
  refine triple_request (fun c hc => hc.shown.allowed _) fun c x c' hc he => ?_
  obtain ⟨⟨answer, store, hbeside, hvalid, heq⟩, -⟩ := he
  cases x with
  | error error =>
    refine ⟨stored, ?_, hinterim⟩
    rw [world_of_write_error heq]
    exact hc.shown.trans hbeside hvalid
  | ok u =>
    obtain ⟨next, hnext, hresult⟩ := Except.bind_ok_iff.mp (apply_of_write_ok heq)
    obtain ⟨haccepted, -, rfl⟩ := InMemoryStateStore.commitSnapshot_ok_iff.mp hnext
    obtain ⟨-, hpair⟩ := Prod.mk.inj (Except.ok.inj hresult)
    obtain ⟨hstate, hstore⟩ := Prod.mk.inj hpair
    refine ⟨⟨hjustified, ?_, ?_⟩, ?_⟩
    · rw [← hstore]
      exact hc.copy.atRevision _
    · rw [← hstore]
      exact haccepted.atRevision _
    · rw [← hstate]
      exact hc.copy.atRevision _

/-- What is sure goes on. -/
theorem sure_spec {I : Observed → Prop}
    (hI : Stable (attemptRules host limits start) (fun o => o.kind.steady) I) {o : Op}
    (hsure : o.sure) (hsteady : o.kind.steady) :
    Act.Triple (attemptRules host limits start) I (request o) (fun _ => I) (fun _ _ => False) := by
  refine triple_request (fun c hc => (hI o c hsteady hc).1) fun c x c' hc he => ?_
  have hnext := (hI o c hsteady hc).2 x c' he
  obtain ⟨⟨answer, store, -, -, heq⟩, -⟩ := he
  obtain ⟨result, hok⟩ := ok_of_sure host answer hsure { c.1 with store := store }
  rw [heq] at hok
  obtain rfl : x = .ok result := hok
  exact hnext

end Steps

/-! ### Failures -/

section Failures

variable {host : Host} {limits : RunLimits} {start : ProjectState}

/-- **A failure is counted** by the store: the copy does not know yet. -/
theorem recordFailure_attempt {handle : TaskHandle} (hexecutable : start.Executable handle)
    (hsteps : start.execution.stepCount < limits.maxStepsPerRun) {input : RecordFailureInput}
    (htask : input.taskId = handle.task.id)
    (hletter : input.status.getD .retryable = .deadLettered ↔
      Attempt.verdict limits.maxRetriesPerTask start handle = .block) :
    Act.Triple (attemptRules host limits start)
      (fun c => Stage limits start .untouched .untouched c.1)
      (guardedWrite (.recordFailure input))
      (fun counted c => Stage limits start (.failed handle counted.1) .untouched c.1 ∧
        (Attempt.FailureOf limits.maxRetriesPerTask start handle counted.1 ∧
          counted.1.reason = input.reason ∧
          counted.2 = start.retryCount handle.task.id + 1))
      (fun _ => BrokenOff limits start) := by
  refine Act.Triple.bind (steady_spec (uses_request (o := .requireValid) (by exact trivial)) trivial)
    fun _ => ?_
  refine triple_request (fun c hc => hc.shown.allowed _) fun c x c' hc he => ?_
  obtain ⟨⟨answer, store, hbeside, hvalid, heq⟩, -⟩ := he
  have hfound := hc.shown.trans hbeside hvalid
  cases x with
  | error error =>
    refine ⟨.untouched, ?_, trivial⟩
    rw [world_of_write_error heq]
    exact hfound
  | ok counted =>
    obtain ⟨⟨next, failure, retryCount⟩, hnext, hresult⟩ :=
      Except.bind_ok_iff.mp (apply_of_write_ok heq)
    obtain ⟨-, hfailure, hretry, hcommit⟩ := InMemoryStateStore.recordFailure_ok_iff.mp hnext
    obtain ⟨haccepted, -, hrevised⟩ := InMemoryStateStore.commitSnapshot_ok_iff.mp hcommit
    obtain ⟨hcounted, hpair⟩ := Prod.mk.inj (Except.ok.inj hresult)
    obtain ⟨hstate, hstore⟩ := Prod.mk.inj hpair
    have hof : Attempt.FailureOf limits.maxRetriesPerTask start handle failure := by
      rw [hfailure]
      exact ⟨htask, hletter⟩
    rw [← hcounted]
    refine ⟨⟨⟨.failed hexecutable hsteps hof, ?_, ?_⟩, ?_⟩, hof, ?_, ?_⟩
    · rw [← hstore]
      show (start.countFailure failure).Beside next
      rw [hrevised]
      exact (hfound.beside.countFailure failure).atRevision _
    · rw [← hstore]
      show next.Valid
      rw [hrevised]
      exact haccepted.atRevision _
    · rw [← hstate]
      exact hc.copy.atRevision _
    · show failure.reason = input.reason
      rw [hfailure]
      rfl
    · show retryCount = _
      rw [hretry, htask, hfound.beside.book.retryCount]
      rfl

/-- Reading the copy. -/
theorem readCopy_spec {stored copied : Attempt} :
    Act.Triple (attemptRules host limits start) (fun c => Stage limits start stored copied c.1)
      (request .readState)
      (fun state c => Stage limits start stored copied c.1 ∧ (copied.apply start).Beside state)
      (fun _ => BrokenOff limits start) := by
  refine triple_request (fun c hc => hc.shown.allowed _) fun c x c' hc he => ?_
  have hnext : Stage limits start stored copied c'.1 := hc.effect (by exact trivial) he.1
  obtain ⟨⟨answer, store, -, -, heq⟩, -⟩ := he
  obtain ⟨rfl, -⟩ := Prod.mk.inj heq
  exact ⟨hnext, hc.copy⟩

variable (rt : Runtime) {handle : TaskHandle} {failure : FailureRecord}

/-- The task is split. -/
theorem split_attempt
    (hjustified : ∀ reason, (Attempt.split handle failure reason).Justified limits start)
    (reason runId : String) :
    Act.Triple (attemptRules host limits start)
      (fun c => Stage limits start (.failed handle failure) (.failed handle failure) c.1)
      (Runtime.splitTaskForFailure handle reason runId)
      (fun result => Reported limits start result) (fun _ => BrokenOff limits start) := by
  have hplain : ∀ {copied : Attempt} {o : Op}, o.kind.steady →
      Act.Triple (attemptRules host limits start)
        (fun c => Stage limits start (.failed handle failure) copied c.1) (request o)
        (fun _ c => Stage limits start (.failed handle failure) copied c.1)
        (fun _ => BrokenOff limits start) := fun h => steady_spec (uses_request h) trivial
  refine Act.Triple.bind (update_spec (.split handle failure reason)
    fun state h => h.splitTask handle _) fun _ => ?_
  refine Act.Triple.bind (hplain (by exact trivial)) fun artifactId => ?_
  refine Act.Triple.bind (hplain (by exact trivial)) fun artifactAt => ?_
  refine Act.Triple.bind (hplain (by exact trivial)) fun decisionId => ?_
  refine Act.Triple.bind (hplain (by exact trivial)) fun decisionAt => ?_
  refine Act.Triple.bind (hplain (by exact trivial)) fun _ => ?_
  refine Act.Triple.bind (hplain (by exact trivial)) fun _ => ?_
  refine Act.Triple.bind (steady_spec (does_newEvent (by exact trivial) _ _ _) trivial)
    fun event => ?_
  refine Act.Triple.bind (save_spec (hjustified reason) Attempt.interim_failed [event]) fun _ => ?_
  exact Act.Triple.pure fun c hc => hc.showsSome ⟨rfl, rfl, rfl⟩

/-- Or blocked. -/
theorem block_attempt
    (hjustified : (Attempt.blocked handle failure).Justified limits start) (runId : String) :
    Act.Triple (attemptRules host limits start)
      (fun c => Stage limits start (.failed handle failure) (.failed handle failure) c.1)
      (Runtime.blockTaskForFailure handle failure.reason runId)
      (fun result => Reported limits start result) (fun _ => BrokenOff limits start) := by
  have hplain : ∀ {copied : Attempt} {o : Op}, o.kind.steady →
      Act.Triple (attemptRules host limits start)
        (fun c => Stage limits start (.failed handle failure) copied c.1) (request o)
        (fun _ c => Stage limits start (.failed handle failure) copied c.1)
        (fun _ => BrokenOff limits start) := fun h => steady_spec (uses_request h) trivial
  refine Act.Triple.bind (update_spec (.blocked handle failure)
    fun state h => h.blockTask handle) fun _ => ?_
  refine Act.Triple.bind (hplain (by exact trivial)) fun artifactId => ?_
  refine Act.Triple.bind (hplain (by exact trivial)) fun artifactAt => ?_
  refine Act.Triple.bind (hplain (by exact trivial)) fun _ => ?_
  refine Act.Triple.bind
    (steady_spec (does_recordArtifact (by exact trivial) (by exact trivial) _) trivial)
    fun _ => ?_
  refine Act.Triple.bind (steady_spec (does_newEvent (by exact trivial) _ _ _) trivial)
    fun event => ?_
  refine Act.Triple.bind (save_spec hjustified Attempt.interim_failed [event]) fun _ => ?_
  exact Act.Triple.pure fun c hc => hc.showsSome ⟨rfl, rfl, rfl⟩

/-- **The failure handler**: a failure is counted, and the verdict on it is what the retries that were
counted when the cycle began call for. -/
theorem handleFailure_attempt (hlimits : rt.config.workflow = limits)
    (hexecutable : start.Executable handle)
    (hsteps : start.execution.stepCount < limits.maxStepsPerRun) (role : RuntimeFailureRole)
    (reason runId : String) :
    Act.Triple (attemptRules host limits start)
      (fun c => Stage limits start .untouched .untouched c.1)
      (rt.handleFailure handle role reason runId)
      (fun result => Reported limits start result) (fun _ => BrokenOff limits start) := by
  subst hlimits
  refine Act.Triple.bind (readCopy_spec) fun state => Act.Triple.pull fun hstate => ?_
  have hverdict : nextFailureAction handle.task (state.retryCount handle.task.id)
      rt.config.workflow.maxRetriesPerTask =
        Attempt.verdict rt.config.workflow.maxRetriesPerTask start handle := by
    rw [Attempt.verdict, SameBook.retryCount hstate.book]
    rfl
  dsimp only
  rw [hverdict]
  refine Act.Triple.bind (steady_spec (uses_request (o := .now) (by exact trivial)) trivial)
    fun now => ?_
  have hletter : ∀ action : FailureAction, (if action = .block then FailureStatus.deadLettered
      else .retryable) = .deadLettered ↔ action = .block := by
    intro action
    cases action <;> decide
  refine Act.Triple.bind (recordFailure_attempt hexecutable hsteps rfl (hletter _))
    fun counted => ?_
  refine Act.Triple.pull ?_
  rintro ⟨hof, hreason, hcount⟩
  obtain ⟨failure, retryCount⟩ := counted
  dsimp only at hof hreason hcount
  refine Act.Triple.bind (update_spec (.failed handle failure) fun state h => ?_)
    fun _ => ?_
  · rw [hcount, ← hof.task]
    exact h.noteFailure failure
  refine Act.Triple.bind (steady_spec (uses_request (o := .flush) (by exact trivial)) trivial)
    fun _ => ?_
  cases haction : Attempt.verdict rt.config.workflow.maxRetriesPerTask start handle with
  | split =>
    exact split_attempt (fun reason => .split hexecutable hsteps hof haction) reason runId
  | block =>
    obtain rfl : failure.reason = reason := hreason
    exact block_attempt (.blocked hexecutable hsteps hof haction) runId
  | retry =>
    refine Act.Triple.bind
      (save_spec (.failed hexecutable hsteps hof) Attempt.interim_failed []) fun _ => ?_
    exact Act.Triple.pure fun c hc => hc.showsSome ⟨rfl, rfl, congrArg some hreason.symm, haction⟩

end Failures

/-! ### Runs of a task -/

section Runs

variable (rt : Runtime) (run : Runtime.TaskRun)

theorem does_executeTask (prompt : OptimizedPrompt) :
    Does OpKind.steady (rt.executeTask run prompt) := by
  refine does_bind (does_callRole rt trivial trivial trivial trivial trivial run _ _ (by exact trivial) _)
    fun _ => ?_
  refine does_bind (does_request (by exact trivial)) fun _ => ?_
  refine does_bind (does_bind (does_listWorkspaceChangedFiles (by exact trivial) _) fun _ =>
    does_ofExcept _) fun _ => ?_
  exact does_bind (does_recordEvent (by exact trivial) (by exact trivial) _ _ _) fun _ => does_pure _

theorem does_reviewTask (result : Json Nat) : Does OpKind.steady (rt.reviewTask run result) := by
  have hevent : ∀ eventType, Does OpKind.steady
      (recordEvent eventType [("taskId", .str run.handle.task.id)] run.runId) := fun eventType =>
    does_recordEvent (by exact trivial) (by exact trivial) eventType _ _
  refine does_bind (does_callRole rt trivial trivial trivial trivial trivial run _ _ (by exact trivial) _)
    fun _ => ?_
  dsimp only
  split
  · exact does_bind (hevent _) fun _ => does_pure _
  · exact does_bind (hevent _) fun _ => does_pure _

theorem does_testTask (result : Json Nat) : Does OpKind.steady (rt.testTask run result) := by
  have hevent : ∀ eventType, Does OpKind.steady
      (recordEvent eventType [("taskId", .str run.handle.task.id)] run.runId) := fun eventType =>
    does_recordEvent (by exact trivial) (by exact trivial) eventType _ _
  have hstages : ∀ stages, Does OpKind.steady
      (Runtime.persistQualityStageArtifacts run.runId run.handle.task.id stages) := fun stages =>
    does_persistQualityStageArtifacts (by exact trivial) (by exact trivial) (by exact trivial) _ _
      stages
  refine does_bind (does_callRole rt trivial trivial trivial trivial trivial run _ _ (by exact trivial) _)
    fun _ => ?_
  dsimp only
  split
  · refine does_bind (does_request (by exact trivial)) fun _ => ?_
    exact does_bind (hstages _) fun _ => does_bind (hevent _) fun _ => does_pure _
  · refine does_bind (does_request (by exact trivial)) fun _ => does_bind (does_ofExcept _)
      fun _ => ?_
    exact does_bind (hstages _) fun _ => does_bind (hevent _) fun _ => does_pure _

variable {host : Host} {limits : RunLimits} {start : ProjectState}

/-- **The completion of a task** is in the store with the last save, or not at all. -/
theorem completeTask_attempt (hexecutable : start.Executable run.handle)
    (hsteps : start.execution.stepCount < limits.maxStepsPerRun) (summary : String) :
    Act.Triple (attemptRules host limits start)
      (fun c => Stage limits start .untouched .untouched c.1) (rt.completeTask run summary)
      (fun result => Reported limits start result.1) (fun _ => BrokenOff limits start) := by
  have hsteady : ∀ {α : Type} {m : Action α}, Does OpKind.steady m →
      Act.Triple (attemptRules host limits start)
        (fun c => Stage limits start .untouched (.completed run.handle) c.1) m
        (fun _ c => Stage limits start .untouched (.completed run.handle) c.1)
        (fun _ => BrokenOff limits start) := fun hm => steady_spec hm trivial
  refine Act.Triple.bind (update_spec (.completed run.handle)
    fun state h => h.completeTask run.handle) fun _ => ?_
  refine Act.Triple.bind (hsteady (does_newArtifact (by exact trivial) _ _ _)) fun _ => ?_
  refine Act.Triple.bind (hsteady (does_newArtifact (by exact trivial) _ _ _)) fun _ => ?_
  refine Act.Triple.bind (hsteady (does_recordArtifact (by exact trivial) (by exact trivial) _))
    fun _ => ?_
  refine Act.Triple.bind (hsteady (does_recordArtifact (by exact trivial) (by exact trivial) _))
    fun _ => ?_
  refine Act.Triple.bind (hsteady (does_request (by exact trivial))) fun _ => ?_
  refine Act.Triple.bind (hsteady (does_request (by exact trivial))) fun _ => ?_
  refine Act.Triple.bind (hsteady (does_completeGitLifecycle (by exact trivial) rt _
    (by exact trivial) (by exact trivial) (by exact trivial) (by exact trivial))) fun status => ?_
  refine Act.Triple.bind (hsteady (does_persistAndRequire (by exact trivial) (by exact trivial)
    (by exact trivial) _)) fun _ => ?_
  refine Act.Triple.bind (hsteady (does_newEvent (by exact trivial) _ _ _)) fun event => ?_
  refine Act.Triple.bind (hsteady (does_request (by exact trivial))) fun _ => ?_
  refine Act.Triple.bind (save_spec (.completed hexecutable hsteps) Attempt.interim_untouched [event]) fun _ => ?_
  cases status with
  | approvalPending => exact Act.Triple.pure fun c hc => hc.showsSome ⟨rfl, Or.inr ⟨rfl, rfl⟩⟩
  | ok => exact Act.Triple.pure fun c hc => hc.showsSome ⟨rfl, Or.inl ⟨rfl, rfl⟩⟩

/-- The run of a task up to its completion or the verdict on its failure. -/
theorem runTaskBody_attempt (hlimits : rt.config.workflow = limits)
    (hexecutable : start.Executable run.handle)
    (hsteps : start.execution.stepCount < limits.maxStepsPerRun) :
    Act.Triple (attemptRules host limits start)
      (fun c => Stage limits start .untouched .untouched c.1) (rt.runTaskBody run)
      (fun result => Reported limits start result.1) (fun _ => BrokenOff limits start) := by
  have hsteady : ∀ {α : Type} {m : Action α}, Does OpKind.steady m →
      Act.Triple (attemptRules host limits start)
        (fun c => Stage limits start .untouched .untouched c.1) m
        (fun _ c => Stage limits start .untouched .untouched c.1)
        (fun _ => BrokenOff limits start) := fun hm => steady_spec hm trivial
  have hfailure : ∀ role reason, Act.Triple (attemptRules host limits start)
      (fun c => Stage limits start .untouched .untouched c.1)
      (rt.handleFailure run.handle role reason run.runId)
      (fun result => Reported limits start result) (fun _ => BrokenOff limits start) :=
    fun role reason => handleFailure_attempt rt hlimits hexecutable hsteps role reason run.runId
  -- Up to the verdict no step touches the task: it stays as it was at the start, and the failure
  -- handler or the completion makes the one change.
  refine Act.Triple.bind (hsteady (does_request (by exact trivial))) fun _ => ?_
  refine Act.Triple.bind (hsteady (does_recordEvent (by exact trivial) (by exact trivial) _ _ _))
    fun _ => ?_
  refine Act.Triple.bind (hsteady (does_persistAndRequire (by exact trivial) (by exact trivial)
    (by exact trivial) _)) fun _ => ?_
  refine Act.Triple.bind (hsteady (does_optimizePrompt rt run (by exact trivial) (by exact trivial)
    (by exact trivial) (by exact trivial) (by exact trivial) (by exact trivial) (by exact trivial)
    (by exact trivial))) fun prompt => ?_
  refine Act.Triple.bind (hsteady (does_executeTask rt run prompt)) fun response => ?_
  refine Act.Triple.bind (m := if requiresReview run.handle.task then
    rt.reviewTask run response.payload else pure true)
    (hsteady (does_ite (does_reviewTask rt run _) (does_pure _))) fun approved => ?_
  split
  · exact Act.Triple.bind (hfailure _ _) fun result => Act.Triple.pure fun _ h => h
  refine Act.Triple.bind (m := if requiresTesting run.handle.task then
    rt.testTask run response.payload else pure true)
    (hsteady (does_ite (does_testTask rt run _) (does_pure _))) fun passed => ?_
  split
  · exact Act.Triple.bind (hfailure _ _) fun result => Act.Triple.pure fun _ h => h
  refine Act.Triple.bind (hsteady (does_ofExcept _)) fun summary => ?_
  exact completeTask_attempt rt run hexecutable hsteps summary

/-- The summary of the costs is recorded whatever happens, and never fails. -/
theorem costSummary_spec {I : Observed → Prop}
    (hI : Stable (attemptRules host limits start) (fun o => o.kind.steady) I)
    (outcome : RunOutcome) :
    Act.Triple (attemptRules host limits start) I
      (do
        Runtime.recordRunCostSummary run outcome
        request (.updateShared .clearBuffer))
      (fun _ => I) (fun _ _ => False) := by
  refine Act.Triple.bind ?_ fun _ => sure_spec hI (by exact trivial) (by exact trivial)
  refine Act.Triple.bind (sure_spec hI (o := .readShared) (by exact trivial) (by exact trivial))
    fun shared => ?_
  refine Act.Triple.bind (Q := fun _ => I) ?_ fun artifact => ?_
  · refine Act.Triple.bind (sure_spec hI (by exact trivial) (by exact trivial)) fun id => ?_
    refine Act.Triple.bind (sure_spec hI (by exact trivial) (by exact trivial)) fun createdAt => ?_
    exact Act.Triple.pure fun _ h => h
  refine Act.Triple.bind (Act.Triple.ignoring (hI.keeps ?_)) fun _ =>
    sure_spec hI (by exact trivial) (by exact trivial)
  exact does_recordArtifact (P := OpKind.steady) (by exact trivial) (by exact trivial) artifact

/-- **A run of a task** is an attempt at it. -/
theorem runTask_attempt (hlimits : rt.config.workflow = limits)
    (hexecutable : start.Executable run.handle)
    (hsteps : start.execution.stepCount < limits.maxStepsPerRun) :
    Act.Triple (attemptRules host limits start)
      (fun c => Stage limits start .untouched .untouched c.1) (rt.runTask run)
      (fun result => Reported limits start result) (fun _ => BrokenOff limits start) := by
  have hplain : ∀ {o : Op}, o.kind.steady → Act.Triple (attemptRules host limits start)
      (fun c => Stage limits start .untouched .untouched c.1) (request o)
      (fun _ c => Stage limits start .untouched .untouched c.1)
      (fun _ => BrokenOff limits start) := fun h => steady_spec (uses_request h) trivial
  refine Act.Triple.bind (hplain (o := .readState) (by exact trivial)) fun state => ?_
  refine Act.Triple.bind (hplain (by exact trivial)) fun _ => ?_
  refine Act.Triple.bind (hplain (by exact trivial)) fun _ => ?_
  refine Act.Triple.bind (Q := fun result => Reported limits start result.1) ?_ fun result =>
    Act.Triple.pure fun _ h => h
  refine Act.Triple.finallyDo (runTaskBody_attempt rt run hlimits hexecutable hsteps) ?_ ?_
  · intro result
    exact (costSummary_spec run (stable_showsSome _) _).imp (fun _ h => h) (fun _ _ h => h)
      fun _ _ h => h.elim
  · intro error
    exact (costSummary_spec run (stable_showsSome _) _).imp (fun _ h => h) (fun _ _ h => h)
      fun _ _ h => h.elim

end Runs

/-! ### Cycles -/

section Workspace

variable {rt : Runtime} {start : ProjectState} {handle : TaskHandle}

/-- **An attempt in a workspace.** -/
theorem runInWorkspace_attempt (hexecutable : start.Executable handle)
    (hsteps : start.execution.stepCount < rt.config.workflow.maxStepsPerRun) (runId : String) :
    Act.Triple (attemptRules rt.host rt.config.workflow start)
      (fun c => Stage rt.config.workflow start .untouched .untouched c.1)
      (rt.runInWorkspace handle runId)
      (fun result => Reported rt.config.workflow start result)
      (fun _ => BrokenOff rt.config.workflow start) := by
  have hsteady : ∀ {α : Type} {m : Action α}, Does OpKind.plain m →
      Act.Triple (attemptRules rt.host rt.config.workflow start)
        (fun c => Stage rt.config.workflow start .untouched .untouched c.1) m
        (fun _ c => Stage rt.config.workflow start .untouched .untouched c.1)
        (fun _ => BrokenOff rt.config.workflow start) := fun hm =>
    steady_spec (uses_of_does hm fun _ h => OpKind.steady_of_plain h) trivial
  have hkeeps : ∀ {α : Type} {m : Action α} (sort : Attempt → Prop), Does OpKind.plain m →
      Act.Keeps (attemptRules rt.host rt.config.workflow start)
        (ShowsSome rt.config.workflow start sort) m := fun sort hm =>
    (stable_showsSome sort).keeps (uses_of_does hm fun _ h => OpKind.steady_of_plain h)
  refine Act.Triple.bind (hsteady (does_request (o := .readState) (by exact trivial)))
    fun state => ?_
  refine Act.Triple.bind (hsteady (does_allocateWorkspace rt _ _ _)) fun workspace => ?_
  refine Act.Triple.bind (hsteady (does_recordNew (by exact trivial) (by exact trivial)
    (by exact trivial) _ _ _)) fun _ => ?_
  refine Act.Triple.bind (hsteady (does_recordNew (by exact trivial) (by exact trivial)
    (by exact trivial) _ _ _)) fun _ => ?_
  refine Act.Triple.finallyDo (Q := fun result => Reported rt.config.workflow start result)
    (E := fun _ => BrokenOff rt.config.workflow start)
    (Act.Triple.catching (runTask_attempt rt _ rfl hexecutable hsteps) fun error => ?_)
    (fun result => ?_) fun error => ?_
  · exact Act.Triple.bind (Act.Triple.ignoring (hkeeps _ (does_rollbackWorkspace workspace)))
      fun _ => Act.Triple.throw fun _ h => h
  · exact Act.Triple.ignoring (hkeeps _ (does_cleanupWorkspace rt workspace))
  · exact Act.Triple.ignoring (hkeeps _ (does_cleanupWorkspace rt workspace))

end Workspace

section Choice

variable {rt : Runtime} {start : ProjectState}

/-- What is executable is so beside the work. -/
theorem ProjectState.SameBook.executableIn_iff {state state' : ProjectState}
    (h : state.SameBook state') {key : String} {task : BacklogTask} :
    ExecutableIn state' key task ↔ ExecutableIn state key task := by
  unfold ExecutableIn
  rw [h.backlog, h.completed, h.blocked]

theorem steady_of_call {name : AgentRoleName} {input : RoleInput} {o : Op}
    (h : CallOp name input o) : o.kind.steady := by
  cases h with
  | quiet h => exact OpKind.steady_of_plain (OpKind.plain_of_quiet h)
  | @execute req context hreq =>
    show req.input.kind.steady
    cases req.input <;> trivial
  | @step req context observations hreq =>
    show req.input.kind.steady
    cases req.input <;> trivial

/-- The cycle has not begun an attempt, and knows this of its choice. -/
def Choosing (rt : Runtime) (start : ProjectState) (choice : Option (String × BacklogTask))
    (c : Observed) : Prop :=
  Stage rt.config.workflow start .untouched .untouched c.1 ∧ ChoiceIn start choice c

theorem stable_choosing (choice : Option (String × BacklogTask)) :
    Stable (attemptRules rt.host rt.config.workflow start) (fun o => o.kind.steady)
      (Choosing rt start choice) := by
  intro o c ho hc
  have hstage := @stable_stage rt.host rt.config.workflow start .untouched .untouched o c ho hc.1
  exact ⟨hstage.1, fun x c' he => ⟨hstage.2 x c' he, hc.2.cons he.2⟩⟩

/-- **The task manager's answer** about a copy beside the work. -/
theorem taskManager_attempt {state : ProjectState} {req : RoleRequest}
    (hreq : req.input = .select state) (hstate : start.Beside state)
    (context : RoleExecutionContext) :
    Act.Triple (attemptRules rt.host rt.config.workflow start)
      (fun c => Stage rt.config.workflow start .untouched .untouched c.1)
      (rt.executeRole (rt.taskManager req context) req context)
      (fun response => Choosing rt start response.output)
      (fun _ c => Stage rt.config.workflow start .untouched .untouched c.1) := by
  have hsteady := @stable_stage rt.host rt.config.workflow start .untouched .untouched
  unfold Runtime.taskManager
  split
  · -- Another task manager: its answer is in the record.
    have hcall := hsteady.mono fun o h => @steady_of_call .taskManager req.input o h
    refine (answered_spec rfl hcall rt).imp (fun _ h => h) ?_ (fun _ _ h => h)
    intro response c h
    refine ⟨h.1, fun hchoice key task hout => ?_⟩
    have hanswered : Answered .taskManager (.select state) response c.2 := hreq ▸ h.2
    refine hstate.book.executableIn_iff.mp ?_
    exact hchoice state response
      (List.mem_of_mem_head? (Option.mem_def.mpr hanswered)) key task hout
  · -- The default one selects from the copy.
    have hquiet := hsteady.mono fun _ h => OpKind.steady_of_plain (OpKind.plain_of_quiet h)
    refine executeRole_spec rt hquiet ?_
      (fun response => (stable_choosing response.output).mono
        fun _ h => OpKind.steady_of_plain (OpKind.plain_of_quiet h))
      (fun _ _ h => h.1) fun _ => Act.uses_pure _
    refine Act.Triple.bind (Q := fun copy c =>
      Stage rt.config.workflow start .untouched .untouched c.1 ∧ start.Beside copy) ?_
      fun copy => Act.Triple.pure ?_
    · refine triple_request (fun c hc => hc.shown.allowed _) fun c x c' hc he => ?_
      have hnext : Stage rt.config.workflow start .untouched .untouched c'.1 :=
        hc.effect (by exact trivial) he.1
      obtain ⟨⟨answer, store, -, -, heq⟩, -⟩ := he
      obtain ⟨rfl, -⟩ := Prod.mk.inj heq
      exact ⟨hnext, hc.copy⟩
    · rintro c ⟨hstage, hcopy⟩
      refine ⟨hstage, fun _ key task hentry => hcopy.book.executableIn_iff.mp ?_⟩
      exact mem_executableEntries.mp (selectNextEntry_mem hentry)

end Choice

section Cycle

variable {rt : Runtime} {start : ProjectState}

/-- `selectNextTask` of the orchestrator. -/
theorem selectTask_attempt (runId : String) :
    Act.Triple (attemptRules rt.host rt.config.workflow start)
      (fun c => Stage rt.config.workflow start .untouched .untouched c.1) (rt.selectTask runId)
      (fun choice => Choosing rt start (choice.map fun handle => (handle.key, handle.task)))
      (fun _ => BrokenOff rt.config.workflow start) := by
  refine Act.Triple.bind readCopy_spec fun state => Act.Triple.pull fun hstate => ?_
  refine Act.Triple.bind ((taskManager_attempt rfl hstate _).imp (fun _ h => h) (fun _ _ h => h)
    fun _ _ h => h.showsSome trivial) fun response => ?_
  have hrelabel := (@stable_choosing rt start response.output).keeps_request
    (o := .loadRevision) (by exact trivial)
  refine Act.Triple.bind (hrelabel.imp (fun _ h => h) (fun _ _ h => h)
    fun _ _ h => h.1.showsSome trivial) fun _ => Act.Triple.pure fun c hc => ?_
  have hmap : ∀ entry : Option (String × BacklogTask),
      ((entry.map fun entry => ({ task := entry.2, key := entry.1 } : TaskHandle)).map
        fun handle => (handle.key, handle.task)) = entry := by
    intro entry
    cases entry <;> rfl
  exact (hmap response.output).symm ▸ hc

/-- The choice of a task, forced or not. -/
theorem choose_attempt {state : ProjectState} (hstate : start.Beside state) (runId : String)
    (forced : Option String) :
    Act.Triple (attemptRules rt.host rt.config.workflow start)
      (fun c => Stage rt.config.workflow start .untouched .untouched c.1)
      (match forced with
      | some taskId => pure (Runtime.selectForcedTask state taskId)
      | none => rt.selectTask runId)
      (fun choice => Choosing rt start (choice.map fun handle => (handle.key, handle.task)))
      (fun _ => BrokenOff rt.config.workflow start) := by
  cases forced with
  | some taskId =>
    refine Act.Triple.pure fun c hc => ⟨hc, fun hchoice key task hentry => ?_⟩
    refine hstate.book.executableIn_iff.mp ?_
    exact @choiceIn_selectForcedTask state state.revision taskId c hchoice key task hentry
  | none => exact selectTask_attempt runId

/-- What is promised of a cycle if every answer of the task manager is executable. -/
def Provided (promise : Observed → Prop) (c : Observed) : Prop :=
  ChoiceExecutable c.2 → promise c

/-- **What a cycle does with its choice.** -/
theorem handleChoice_attempt
    (hsteps : start.execution.stepCount < rt.config.workflow.maxStepsPerRun)
    (runId stopReason : String) (choice : Option TaskHandle) :
    Act.Triple (attemptRules rt.host rt.config.workflow start)
      (Choosing rt start (choice.map fun handle => (handle.key, handle.task)))
      (match choice with
      | none => pure { runId, status := .idle, stopReason := some stopReason }
      | some handle => rt.runInWorkspace handle runId)
      (fun result => Provided (Reported rt.config.workflow start result))
      (fun _ => Provided (BrokenOff rt.config.workflow start)) := by
  cases choice with
  | none => exact Act.Triple.pure fun c hc _ => hc.1.showsSome ⟨rfl, rfl⟩
  | some handle =>
    intro c hc
    by_cases hchoice : ChoiceExecutable c.2
    · have hexecutable : start.Executable handle := hc.2 hchoice _ _ rfl
      have hrun : Act.Triple (attemptRules rt.host rt.config.workflow start)
          (fun c => Stage rt.config.workflow start .untouched .untouched c.1)
          (rt.runInWorkspace handle runId)
          (fun result => Provided (Reported rt.config.workflow start result))
          (fun _ => Provided (BrokenOff rt.config.workflow start)) :=
        (runInWorkspace_attempt hexecutable hsteps runId).imp (fun _ h => h)
          (fun _ _ h _ => h) fun _ _ h _ => h
      exact hrun c hc.1
    · -- Nothing is promised after an answer that is not executable.
      have hstable : Stable (attemptRules rt.host rt.config.workflow start) (fun _ => True)
          (fun c => ¬ ChoiceExecutable c.2) := by
        intro o c _ hc
        refine ⟨fun h => absurd h hc, fun x c' he hnext => hc ?_⟩
        rw [he.2] at hnext
        exact hnext.tail
      have hrun : Act.Triple (attemptRules rt.host rt.config.workflow start)
          (fun c => ¬ ChoiceExecutable c.2) (rt.runInWorkspace handle runId)
          (fun result => Provided (Reported rt.config.workflow start result))
          (fun _ => Provided (BrokenOff rt.config.workflow start)) :=
        (hstable.keeps (Act.uses_any _)).imp (fun _ h => h) (fun _ _ h hnext => absurd hnext h)
          fun _ _ h hnext => absurd hnext h
      exact hrun c hchoice

/-- **The cycle under its lease.** -/
theorem runUnderLease_attempt (runId : String) (options : Runtime.RunCycleOptions) :
    Act.Triple (attemptRules rt.host rt.config.workflow start)
      (fun c => Stage rt.config.workflow start .untouched .untouched c.1)
      (rt.runUnderLease runId options)
      (fun result => Provided (Reported rt.config.workflow start result))
      (fun _ => Provided (BrokenOff rt.config.workflow start)) := by
  have hsteady : ∀ {α : Type} {m : Action α}, Does OpKind.steady m →
      Act.Triple (attemptRules rt.host rt.config.workflow start)
        (fun c => Stage rt.config.workflow start .untouched .untouched c.1) m
        (fun _ c => Stage rt.config.workflow start .untouched .untouched c.1)
        (fun _ => Provided (BrokenOff rt.config.workflow start)) := fun hm =>
    (steady_spec hm Attempt.interim_untouched).imp (fun _ h => h) (fun _ _ h => h) fun _ _ h _ => h
  have hread : Act.Triple (attemptRules rt.host rt.config.workflow start)
      (fun c => Stage rt.config.workflow start .untouched .untouched c.1) (request .readState)
      (fun state c => Stage rt.config.workflow start .untouched .untouched c.1 ∧ start.Beside state)
      (fun _ => Provided (BrokenOff rt.config.workflow start)) :=
    readCopy_spec.imp (fun _ h => h) (fun _ _ h => h) fun _ _ h _ => h
  have hchoose := fun {state : ProjectState} (hstate : start.Beside state) forced =>
    (@choose_attempt rt start state hstate runId forced).imp (fun _ h => h) (fun _ _ h => h)
      fun _ c h (_ : ChoiceExecutable c.2) => h
  unfold Runtime.runUnderLease
  refine Act.Triple.bind (hsteady (does_request (o := .requireValid) (by exact trivial)))
    fun _ => ?_
  refine Act.Triple.bind hread fun state => ?_
  generalize assertProjectState state = valid
  generalize hstop : shouldStopRun state rt.config.workflow = stop
  refine Act.Triple.pull fun hstate => ?_
  refine Act.Triple.bind (hsteady (does_ofExcept valid)) fun _ => ?_
  cases stop with
  | some reason =>
    refine Act.Triple.bind (hsteady (does_request (o := .randomUUID) (by exact trivial)))
      fun freshId => ?_
    exact Act.Triple.pure fun c hc _ => hc.showsSome ⟨rfl, rfl⟩
  | none =>
    have hsteps : start.execution.stepCount < rt.config.workflow.maxStepsPerRun := by
      rw [← hstate.steps]
      exact stepCount_lt_of_shouldStopRun hstop
    dsimp only
    generalize presentText options.forcedTaskId = forced
    exact Act.Triple.bind (hchoose hstate forced) fun choice =>
      handleChoice_attempt hsteps runId _ choice

/-- The copy becomes the store's content. -/
theorem load_attempt :
    Act.Triple (attemptRules rt.host rt.config.workflow start)
      (fun c => Shown rt.config.workflow start .untouched c.1.store.current) (request .load)
      (fun _ c => Stage rt.config.workflow start .untouched .untouched c.1)
      (fun _ => Provided (BrokenOff rt.config.workflow start)) := by
  refine triple_request (fun c hc => hc.allowed _) fun c x c' hc he => ?_
  obtain ⟨⟨answer, store, hbeside, hvalid, heq⟩, -⟩ := he
  have hfound := hc.trans hbeside hvalid
  simp only [Op.handle, Answer.fallible] at heq
  split at heq
  · obtain ⟨rfl, hw⟩ := Prod.mk.inj heq
    refine fun _ => ⟨.untouched, ?_, trivial⟩
    rw [← hw]
    exact hfound
  · obtain ⟨rfl, hw⟩ := Prod.mk.inj heq
    show Stage rt.config.workflow start .untouched .untouched c'.1
    rw [← hw]
    exact ⟨hfound, hfound.beside⟩

/-- **A cycle is an attempt**, or nothing. -/
theorem runCycle_attempt (options : Runtime.RunCycleOptions) :
    Act.Triple (attemptRules rt.host rt.config.workflow start)
      (fun c => Shown rt.config.workflow start .untouched c.1.store.current)
      (rt.runCycle options)
      (fun result => Provided (Reported rt.config.workflow start result))
      (fun _ => Provided (BrokenOff rt.config.workflow start)) := by
  have hshown : ∀ {o : Op}, o.kind.steady →
      Act.Triple (attemptRules rt.host rt.config.workflow start)
        (fun c => Shown rt.config.workflow start .untouched c.1.store.current) (request o)
        (fun _ c => Shown rt.config.workflow start .untouched c.1.store.current)
        (fun _ => Provided (BrokenOff rt.config.workflow start)) := fun ho =>
    (stable_shown.keeps_request ho).imp (fun _ h => h) (fun _ _ h => h)
      fun _ _ h _ => ⟨_, h, trivial⟩
  refine Act.Triple.bind (hshown (by exact trivial)) fun _ => ?_
  refine Act.Triple.bind (hshown (o := .randomUUID) (by exact trivial)) fun runId => ?_
  refine Act.Triple.bind load_attempt fun _ => ?_
  refine Act.Triple.bind ((steady_spec (uses_request (o := .acquireRunLease) (by exact trivial))
    Attempt.interim_untouched).imp (fun _ h => h) (fun _ _ h => h) fun _ _ h _ => h)
    fun acquired => ?_
  split
  · exact Act.Triple.pure fun c hc _ => hc.showsSome ⟨rfl, rfl⟩
  · have hrelease : ∀ (promise : Attempt → Prop) {E : RuntimeError → Observed → Prop},
        Act.Triple (attemptRules rt.host rt.config.workflow start)
          (Provided (ShowsSome rt.config.workflow start promise)) (Act.ignoring (request .release))
          (fun _ => Provided (ShowsSome rt.config.workflow start promise)) E := by
      intro promise E
      refine Act.Triple.ignoring (Stable.keeps_request (P := fun o => o.kind.steady) ?_
        (by exact trivial))
      intro o c ho hc
      refine ⟨fun hchoice => (hc hchoice).imp fun _ h => h.1, fun x c' he hchoice => ?_⟩
      rw [he.2] at hchoice
      exact (stable_showsSome promise o c ho (hc hchoice.tail)).2 x c' he
    exact Act.Triple.finallyDo (runUnderLease_attempt runId options) (fun _ => hrelease _)
      fun _ => hrelease _

/-- So is the run of a single task that is asked for. -/
theorem runSingleTask_attempt (taskId : String) :
    Act.Triple (attemptRules rt.host rt.config.workflow start)
      (fun c => Shown rt.config.workflow start .untouched c.1.store.current)
      (rt.runSingleTask taskId)
      (fun result => Provided (Reported rt.config.workflow start result))
      (fun _ => Provided (BrokenOff rt.config.workflow start)) := by
  have hrefuse : ∀ error : RuntimeError, Act.Triple (attemptRules rt.host rt.config.workflow start)
      (fun c => Stage rt.config.workflow start .untouched .untouched c.1)
      (throw error : Action RunCycleResult)
      (fun result => Provided (Reported rt.config.workflow start result))
      (fun _ => Provided (BrokenOff rt.config.workflow start)) := fun _ =>
    Act.Triple.throw fun _ h _ => h.showsSome trivial
  have hsteady : ∀ {α : Type} {m : Action α}, Does OpKind.steady m →
      Act.Triple (attemptRules rt.host rt.config.workflow start)
        (fun c => Stage rt.config.workflow start .untouched .untouched c.1) m
        (fun _ c => Stage rt.config.workflow start .untouched .untouched c.1)
        (fun _ => Provided (BrokenOff rt.config.workflow start)) := fun hm =>
    (steady_spec hm Attempt.interim_untouched).imp (fun _ h => h) (fun _ _ h => h) fun _ _ h _ => h
  unfold Runtime.runSingleTask
  refine Act.Triple.bind load_attempt fun _ => ?_
  refine Act.Triple.bind (hsteady (does_request (o := .readState) (by exact trivial)))
    fun state => ?_
  generalize assertProjectState state = valid
  refine Act.Triple.bind (hsteady (does_ofExcept valid)) fun _ => ?_
  split
  · exact hrefuse _
  split_ifs
  · exact hrefuse _
  · exact hrefuse _
  · exact hrefuse _
  · exact (runCycle_attempt _).imp (fun _ h => h.shown) (fun _ _ h => h) fun _ _ h => h

end Cycle

end AiOrchestrator
