import AiOrchestrator.Application.Operators
import AiOrchestrator.Execution.IdleCycles
import AiOrchestrator.Results.Backlog
import AiOrchestrator.Results.Cycles

/-!
# Histories of a store

A store lives longer than any cycle: cycles follow each other, come to a result, fail or are broken off
at any operation, and operators act between them (`History`). What a cycle does to the store is one
attempt (`cycle_refines_attempt`), and everything else follows from what attempts and operators'
actions do: the bookkeeping agrees in every store that is ever held (`bookkeeping_of_history`), what
cycles have reported is kept (`reports_kept`), and the limits bound the work on a task and its
children (`verdicts_bounded`) and the number of completions (`completions_capped`).
-/

namespace AiOrchestrator

open ProjectState

/-! ### Cycles refine attempts -/

/-- What an orchestrator is asked for. -/
inductive CycleRequest
  | runCycle (options : Runtime.RunCycleOptions)
  | runSingleTask (taskId : String)

def CycleRequest.program (rt : Runtime) : CycleRequest → Action RunCycleResult
  | .runCycle options => rt.runCycle options
  | .runSingleTask taskId => rt.runSingleTask taskId

theorem CycleRequest.attempt {rt : Runtime} {start : ProjectState} (request : CycleRequest) :
    Act.Triple (attemptRules rt.host rt.config.workflow start)
      (fun c => Shown rt.config.workflow start .untouched c.1.store.current) (request.program rt)
      (fun result => Provided (Reported rt.config.workflow start result))
      (fun _ => Provided (BrokenOff rt.config.workflow start)) := by
  cases request with
  | runCycle options => exact runCycle_attempt options
  | runSingleTask taskId => exact runSingleTask_attempt taskId

/-- The result says that its task is completed. -/
def RunCycleResult.reportsDone (result : RunCycleResult) : Bool := result.status == .completed

/-- Nothing has to be assumed of the default task manager. -/
theorem choiceExecutable_of_default {rt : Runtime} {w : World} {c : Observed}
    (hdefault : rt.replacesTaskManager = false) (request : CycleRequest)
    {q : Prog Op Op.Ans (Except RuntimeError RunCycleResult)}
    (hrun : Prog.Path (Prog.recorded (Op.amidRecords rt.host)) ((request.program rt).run, (w, []))
      (q, c)) :
    ChoiceExecutable c.2 := by
  have huses : Act.Uses (fun o => ¬ o.selects) (request.program rt) := by
    cases request with
    | runCycle options => exact selectsNone_runCycle hdefault options
    | runSingleTask taskId => exact selectsNone_runSingleTask hdefault taskId
  exact choiceExecutable_of_selectsNone (Prog.Uses.path huses hrun)

/-! ### Cycles of a project of one task -/

namespace Runtime

/-- An orchestrator that works in the repository itself. -/
def staticRuntime : Runtime :=
  { sampleRuntime with config := { sampleConfig with workspaceManagerMode := .static } }

/-- It completes one task in all, and tries each task once. -/
def onceRuntime : Runtime :=
  { staticRuntime with
    config := { staticRuntime.config with
      workflow := { maxStepsPerRun := 1, maxRetriesPerTask := 1 } } }

/-- Answers without a failure under which the lease is acquired. -/
def doneAnswer (o : Op) (w : World) : Answer :=
  { sampleAnswer "" o w with
    flag :=
      match o with
      | .acquireRunLease => true
      | _ => false }

/-- Answers under which the reviewer refuses whatever was done. -/
def refusedAnswer (o : Op) (w : World) : Answer :=
  { doneAnswer o w with
    response := fun name =>
      { role := name, summary := "Done", payload := .null, confidence := 1
        output :=
          match name with
          | .reviewer => { approved := false, blockingIssues := ["The grammar is ambiguous"] }
          | name => sampleOutput name } }

/-- A cycle of that orchestrator under given answers. -/
@[irreducible]
def cycleOver (answer : Op → World → Answer) (w : World) :
    Except RuntimeError RunCycleResult × Observed :=
  Prog.exec (Prog.recording fun o w => Op.handle sampleHost (answer o w) o w)
    (onceRuntime.runCycle {}).run (w, [])

theorem cycleOver_path (answer : Op → World → Answer) (w : World) :
    Prog.Path (Prog.recorded (Op.amidRecords onceRuntime.host))
      ((CycleRequest.program onceRuntime (.runCycle {})).run, (w, []))
      (.ret (cycleOver answer w).1, (cycleOver answer w).2) := by
  unfold cycleOver
  exact Prog.path_recording
    (fun o w => ⟨answer o w, w.store, Beside.refl _, fun h => h, rfl⟩) _ _

/-- The reviewer refuses the task, which is split. -/
def splitCycle : Except RuntimeError RunCycleResult × Observed :=
  cycleOver refusedAnswer (sampleWorld ProjectState.oneTask)

/-- The reviewer refuses its first part as well. -/
def blockedCycle : Except RuntimeError RunCycleResult × Observed :=
  cycleOver refusedAnswer splitCycle.2.1

/-- Then there is nothing left. -/
def idleCycle : Except RuntimeError RunCycleResult × Observed :=
  cycleOver refusedAnswer blockedCycle.2.1

/-- And so it stays. -/
def laterCycle : Except RuntimeError RunCycleResult × Observed :=
  cycleOver doneAnswer idleCycle.2.1

/-- Or the reviewer approves the first part. -/
def completedCycle : Except RuntimeError RunCycleResult × Observed :=
  cycleOver doneAnswer splitCycle.2.1

/-- Then there are no steps left. -/
def cappedCycle : Except RuntimeError RunCycleResult × Observed :=
  cycleOver doneAnswer completedCycle.2.1

def splitResult : RunCycleResult := ⟨"id-0", some "T-1", .idle, some "task_split"⟩

def blockedResult : RunCycleResult :=
  ⟨"id-3", some "T-1--part-1", .blocked, some "review_rejected"⟩

def idleResult : RunCycleResult := ⟨"id-6", none, .idle, some "no_executable_task"⟩

def laterResult : RunCycleResult := ⟨"id-7", none, .idle, some "no_executable_task"⟩

def completedResult : RunCycleResult := ⟨"id-3", some "T-1--part-1", .completed, none⟩

def cappedResult : RunCycleResult := ⟨"id-3", none, .idle, some "max_steps_per_run_reached"⟩

/-- An operator replays the failure of the first part. -/
def replayedFailure : Except RuntimeError Unit × Observed :=
  Prog.exec (Prog.recording fun o w => Op.handle sampleHost (doneAnswer o w) o w)
    (OperatorAction.replayFromFailureCheckpoint "id-7").program.run (blockedCycle.2.1, [])

theorem replayedFailure_path :
    Prog.Path (Prog.recorded (Op.amidRecords sampleHost))
      ((OperatorAction.replayFromFailureCheckpoint "id-7").program.run, (blockedCycle.2.1, []))
      (.ret replayedFailure.1, replayedFailure.2) :=
  Prog.path_recording
    (fun o w => ⟨doneAnswer o w, w.store, Beside.refl _, fun h => h, rfl⟩) _ _

/-- What the cycles and the operator's action come to. One evaluation, as they share their
beginnings. -/
theorem cycles_report :
    (splitCycle.1.toOption = some splitResult ∧ blockedCycle.1.toOption = some blockedResult ∧
      idleCycle.1.toOption = some idleResult ∧ laterCycle.1.toOption = some laterResult) ∧
    (completedCycle.1.toOption = some completedResult ∧
      cappedCycle.1.toOption = some cappedResult) ∧
    ((blockedCycle.2.1.store.current.backlog.tasks.get? "T-1--part-2").map BacklogTask.status) =
      some .todo ∧
    ((blockedCycle.2.1.store.current.replayFromFailureCheckpoint "id-7"
        "2024-01-01T00:00:00.000Z").toOption.map fun replayed => replayed.2.taskId) =
      some "T-1--part-1" ∧
    replayedFailure.1.toOption = some () := by
  decide +kernel

theorem ok_of_toOption {α : Type} {outcome : Except RuntimeError α} {result : α}
    (h : outcome.toOption = some result) : outcome = .ok result := by
  cases outcome with
  | error error => cases h
  | ok value => exact congrArg Except.ok (Option.some.inj h)

/-- A cycle that has come to a result. -/
theorem cycleOver_reports {answer : Op → World → Answer} {w : World} {result : RunCycleResult}
    (h : (cycleOver answer w).1.toOption = some result) :
    Prog.Path (Prog.recorded (Op.amidRecords onceRuntime.host))
      ((CycleRequest.program onceRuntime (.runCycle {})).run, (w, []))
      (.ret (.ok result), (cycleOver answer w).2) :=
  ok_of_toOption h ▸ cycleOver_path answer w

end Runtime

/-! ### Where cycles are -/

/-- What a cycle has come to. -/
def cameTo : Prog Op Op.Ans (Except RuntimeError RunCycleResult) →
    Option (Except RuntimeError RunCycleResult)
  | .ret outcome => some outcome
  | .ask _ _ => none

section Cycles

variable {rt : Runtime} {q : Prog Op Op.Ans (Except RuntimeError RunCycleResult)} {w : World}
  {c : Observed}

/-- What a cycle shows, wherever it is. -/
theorem CycleRequest.shown (request : CycleRequest) (hvalid : w.store.current.Valid)
    (hrun : Prog.Path (Prog.recorded (Op.amidRecords rt.host)) ((request.program rt).run, (w, []))
      (q, c))
    (hchoice : ChoiceExecutable c.2) :
    ∃ attempt : Attempt,
      Shown rt.config.workflow w.store.current attempt c.1.store.current ∧
      (∀ result, cameTo q = some (.ok result) →
        attempt.ReportedBy rt.config.workflow.maxRetriesPerTask w.store.current result) ∧
      ∀ error, cameTo q = some (.error error) → attempt.Interim := by
  have hhere := Prog.wp_path (request.attempt (w, []) ⟨.untouched, Beside.refl _, hvalid⟩) hrun
  cases q with
  | ask o k =>
    obtain ⟨attempt, hshown⟩ := hhere.1 hchoice
    refine ⟨attempt, hshown, ?_, ?_⟩
    · rintro result ⟨⟩
    · rintro error ⟨⟩
  | ret outcome =>
    cases outcome with
    | ok result =>
      obtain ⟨attempt, hshown, hreported⟩ := hhere hchoice
      refine ⟨attempt, hshown, ?_, ?_⟩
      · rintro _ ⟨⟩
        exact hreported
      · rintro error ⟨⟩
    | error error =>
      obtain ⟨attempt, hshown, hinterim⟩ := hhere hchoice
      refine ⟨attempt, hshown, ?_, ?_⟩
      · rintro result ⟨⟩
      · rintro _ ⟨⟩
        exact hinterim

end Cycles

/-! ### Histories -/

/-- The result of a cycle, if it has come to one. -/
def resultsOf (q : Prog Op Op.Ans (Except RuntimeError RunCycleResult)) : List RunCycleResult :=
  match cameTo q with
  | some (.ok result) => [result]
  | some (.error _) | none => []

theorem mem_resultsOf {q : Prog Op Op.Ans (Except RuntimeError RunCycleResult)}
    {result : RunCycleResult} (h : result ∈ resultsOf q) : cameTo q = some (.ok result) := by
  unfold resultsOf at h
  split at h
  · next result' heq => rw [heq, List.mem_singleton.mp h]
  · cases h
  · cases h

theorem resultsOf_cases (q : Prog Op Op.Ans (Except RuntimeError RunCycleResult)) :
    resultsOf q = [] ∨ ∃ result, resultsOf q = [result] ∧ cameTo q = some (.ok result) := by
  unfold resultsOf
  split
  · next result heq => exact Or.inr ⟨result, rfl, heq⟩
  · exact Or.inl rfl
  · exact Or.inl rfl

/-- **Histories**: what a store holds after cycles of orchestrators with the same limits, each come to
a result, failed or broken off, and after actions of operators, where they act. Whatever the operations
of the cycles answer, a task manager that is asked chooses an executable task, which the default one
always does. The results are those that cycles have come to, oldest first. -/
inductive History (limits : RunLimits) (operators : Prop) (start : ProjectState) :
    List RunCycleResult → ProjectState → Prop
  | begin : History limits operators start [] start
  | cycle {results : List RunCycleResult} {w : World}
      (earlier : History limits operators start results w.store.current) (rt : Runtime)
      (hlimits : rt.config.workflow = limits) (request : CycleRequest)
      {q : Prog Op Op.Ans (Except RuntimeError RunCycleResult)} {c : Observed}
      (hrun : Prog.Path (Prog.recorded (Op.amidRecords rt.host))
        ((request.program rt).run, (w, [])) (q, c))
      (hchoice : ChoiceExecutable c.2) :
      History limits operators start
        (results ++ resultsOf q) c.1.store.current
  | operate {results : List RunCycleResult} {w : World}
      (earlier : History limits operators start results w.store.current) (allowed : operators)
      (host : Host) (action : OperatorAction) {q : Prog Op Op.Ans (Except RuntimeError Unit)}
      {c : Observed}
      (hrun : Prog.Path (Prog.recorded (Op.amidRecords host)) (action.program.run, (w, [])) (q, c)) :
      History limits operators start results c.1.store.current

section

variable {operators : Prop} {start : ProjectState} {results : List RunCycleResult} {w : World}

/-- The cycles of the project of one task go on with a history. -/
theorem History.cycleOver
    (earlier : History Runtime.onceRuntime.config.workflow operators start results w.store.current)
    (answer : Op → World → Answer) {result : RunCycleResult}
    (hresult : (Runtime.cycleOver answer w).1.toOption = some result) :
    History Runtime.onceRuntime.config.workflow operators start (results ++ [result])
      (Runtime.cycleOver answer w).2.1.store.current := by
  have hpath := Runtime.cycleOver_reports hresult
  exact earlier.cycle Runtime.onceRuntime rfl (.runCycle {}) hpath
    (choiceExecutable_of_default rfl (.runCycle {}) hpath)

end

/-- The task is split, and then its first part is blocked. -/
theorem blockedHistory (operators : Prop) :
    History Runtime.onceRuntime.config.workflow operators ProjectState.oneTask
      [Runtime.splitResult, Runtime.blockedResult] Runtime.blockedCycle.2.1.store.current := by
  obtain ⟨⟨hsplit, hblocked, -⟩, -⟩ := Runtime.cycles_report
  have hbegin : History Runtime.onceRuntime.config.workflow operators ProjectState.oneTask []
      (Runtime.sampleWorld ProjectState.oneTask).store.current := .begin
  exact (hbegin.cycleOver Runtime.refusedAnswer hsplit).cycleOver Runtime.refusedAnswer hblocked

/-- The task is split, its first part completed, and then there are no steps left. -/
theorem cappedHistory (operators : Prop) :
    History Runtime.onceRuntime.config.workflow operators ProjectState.oneTask
      [Runtime.splitResult, Runtime.completedResult, Runtime.cappedResult]
      Runtime.cappedCycle.2.1.store.current := by
  obtain ⟨⟨hsplit, -⟩, ⟨hcompleted, hcapped⟩, -⟩ := Runtime.cycles_report
  have hbegin : History Runtime.onceRuntime.config.workflow operators ProjectState.oneTask []
      (Runtime.sampleWorld ProjectState.oneTask).store.current := .begin
  exact ((hbegin.cycleOver Runtime.refusedAnswer hsplit).cycleOver
    Runtime.doneAnswer hcompleted).cycleOver Runtime.doneAnswer hcapped

section

variable {limits : RunLimits} {operators : Prop} {start current : ProjectState}
  {results : List RunCycleResult}

/-- **An operator's action** is accounted for wherever it is. -/
theorem operate_refines_outcomes (host : Host) (action : OperatorAction) {w : World}
    (hvalid : w.store.current.Valid) {q : Prog Op Op.Ans (Except RuntimeError Unit)} {c : Observed}
    (hrun : Prog.Path (Prog.recorded (Op.amidRecords host)) (action.program.run, (w, [])) (q, c)) :
    Accounted w.store.current c.1.store.current := by
  have hhere := Prog.wp_path (@operate_accounted host _ action (w, []) ⟨.refl, hvalid⟩) hrun
  cases q with
  | ask o k => exact hhere.1
  | ret outcome => cases outcome <;> exact hhere

/-- A shown attempt is a run of outcomes. -/
theorem Shown.outcomes {attempt : Attempt} (h : Shown limits start attempt current)
    (hvalid : start.Valid) (hconsistent : start.Consistent) :
    Outcomes OutcomeKind.OfRun start current :=
  h.justified.outcomes hvalid hconsistent (h.beside.recorded h.accepted.recordsOk)

/-- **The run lemma**: in every history from an accepted and consistent store, the store is accepted
and consistent. -/
theorem History.keeps (h : History limits operators start results current) (hvalid : start.Valid)
    (hconsistent : start.Consistent) : current.Valid ∧ current.Consistent := by
  induction h with
  | begin => exact ⟨hvalid, hconsistent⟩
  | cycle earlier rt hlimits request hrun hchoice ih =>
    obtain ⟨attempt, hshown, -⟩ := request.shown ih.1 hrun hchoice
    exact (hshown.outcomes ih.1 ih.2).run ih.1 ih.2
  | operate earlier allowed host action hrun ih =>
    exact (operate_refines_outcomes host action ih.1 hrun).outcomes.run ih.1 ih.2

theorem ProjectState.SameBook.failureCount {state state' : ProjectState} (h : state.SameBook state') (id : String) :
    state'.failureCount id = state.failureCount id := by
  unfold ProjectState.failureCount
  rw [h.failures]

/-- An operator's outcome completes nothing and counts no failure. -/
theorem completed_of_byOperator {state state' : ProjectState} {kind : OutcomeKind}
    (hkind : kind.ByOperator) (hconsistent : state.Consistent) (h : Outcome kind state state') :
    state'.execution.completedTaskIds = state.execution.completedTaskIds ∧
      ∀ id, state'.failureCount id = state.failureCount id := by
  cases h with
  | recorded hrec => exact ⟨hrec.book.completed, hrec.book.failureCount⟩
  | @resumed _ resumed _ failureId now failure hok hrec =>
    have hkept := state.failureCount_modifyFailure failureId (fun failure =>
      { failure with status := some .resumed, resumedAt := some now }) fun _ => rfl
    obtain ⟨-, -, ⟨task, -, -, -, rfl⟩ | rfl⟩ := resumeFailure_cases hconsistent hok
    · exact ⟨hrec.book.completed, fun id => (hrec.book.failureCount id).trans (hkept id)⟩
    · exact ⟨hrec.book.completed, fun id => (hrec.book.failureCount id).trans (hkept id)⟩
  | @replayed _ replayed _ failureId now failure hok hrec =>
    have hkept := state.failureCount_modifyFailure failureId (fun failure =>
      { failure with status := some .replayed, replayedAt := some now }) fun _ => rfl
    obtain ⟨-, -, rfl⟩ := replayFromFailureCheckpoint_cases hok
    exact ⟨hrec.book.completed, fun id => (hrec.book.failureCount id).trans (hkept id)⟩
  | failed | completed | split | blocked | markedDone => exact hkind.elim

theorem Accounted.completed (h : Accounted start current) (hvalid : start.Valid)
    (hconsistent : start.Consistent) :
    current.execution.completedTaskIds = start.execution.completedTaskIds ∧
      ∀ id, current.failureCount id = start.failureCount id := by
  obtain ⟨houtcomes, -⟩ := h
  induction houtcomes with
  | refl => exact ⟨rfl, fun _ => rfl⟩
  | tail hrun hstep ih =>
    obtain ⟨kind, hkind, houtcome⟩ := hstep
    obtain ⟨-, hmiddle⟩ := Outcomes.run hrun hvalid hconsistent
    obtain ⟨hlist, hcount⟩ := completed_of_byOperator hkind hmiddle houtcome
    exact ⟨hlist.trans ih.1, fun id => (hcount id).trans (ih.2 id)⟩

/-- The result says that its task, the given one, has failed. -/
def RunCycleResult.reportsFailure (taskId : String) (result : RunCycleResult) : Bool :=
  result.taskId == some taskId && result.status != .completed &&
    result.stopReason != some "approval_pending"

namespace Attempt

variable {maxRetriesPerTask : Nat} {attempt : Attempt} {result : RunCycleResult}

/-- The task that an attempt completes. -/
def completes? : Attempt → Option String
  | .completed handle => some handle.task.id
  | .untouched | .failed _ _ | .split _ _ _ | .blocked _ _ => none

/-- The task that an attempt counts a failure of. -/
def fails? : Attempt → Option String
  | .failed _ failure | .split _ failure _ | .blocked _ failure => some failure.taskId
  | .untouched | .completed _ => none

theorem mem_completed_apply (attempt : Attempt) (state : ProjectState) (id : String) :
    id ∈ (attempt.apply state).execution.completedTaskIds ↔
      id ∈ state.execution.completedTaskIds ∨ attempt.completes? = some id := by
  cases attempt with
  | completed handle =>
    refine mem_pushNew.trans (or_congr_right ?_)
    rw [completes?, Option.some.injEq, eq_comm]
  | split handle failure reason =>
    rw [apply, completedTaskIds_splitTask]
    simp [completes?, countFailure]
  | untouched | failed handle failure | blocked handle failure =>
    simp [completes?, apply, countFailure, blockTask, setTaskStatus]

theorem failureCount_apply (attempt : Attempt) (state : ProjectState) (id : String) :
    (attempt.apply state).failureCount id =
      state.failureCount id + if attempt.fails? = some id then 1 else 0 := by
  unfold failureCount
  rw [failures_apply]
  cases attempt with
  | untouched | completed handle => rfl
  | failed handle failure | split handle failure reason | blocked handle failure =>
    rw [failureCount_append]
    simp only [fails?, Option.some.injEq, eq_comm]

theorem ReportedBy.done (h : attempt.ReportedBy maxRetriesPerTask start result)
    (hdone : result.reportsDone = true) :
    ∃ id, result.taskId = some id ∧ attempt.completes? = some id := by
  have hstatus : result.status = .completed := by simpa [RunCycleResult.reportsDone] using hdone
  cases attempt with
  | completed handle => exact ⟨handle.task.id, h.1, rfl⟩
  | untouched => simp [ReportedBy, hstatus] at h
  | failed handle failure => simp [ReportedBy, hstatus] at h
  | split handle failure reason => simp [ReportedBy, hstatus] at h
  | blocked handle failure => simp [ReportedBy, hstatus] at h

theorem ReportedBy.failure {limits : RunLimits}
    (h : attempt.ReportedBy maxRetriesPerTask start result)
    (hjustified : attempt.Justified limits start) {id : String}
    (hfailure : result.reportsFailure id = true) : attempt.fails? = some id := by
  obtain ⟨⟨htask, hstatus⟩, hreason⟩ :
      (result.taskId = some id ∧ result.status ≠ .completed) ∧
        result.stopReason ≠ some "approval_pending" := by
    simpa [RunCycleResult.reportsFailure] using hfailure
  cases hjustified with
  | untouched => exact absurd (h.1.symm.trans htask) (by simp)
  | failed _ _ hof | split _ _ hof _ | blocked _ _ hof _ =>
    exact (congrArg some hof.task).trans (h.1.symm.trans htask)
  | completed _ _ =>
    rcases h.2 with ⟨hcompleted, -⟩ | ⟨-, hpending⟩
    · exact absurd hcompleted hstatus
    · exact absurd hpending hreason

end Attempt

/-- A result about a task reports an attempt that has settled what becomes of it. -/
theorem Attempt.ReportedBy.settles {maxRetriesPerTask : Nat} {attempt : Attempt}
    {result : RunCycleResult} (h : attempt.ReportedBy maxRetriesPerTask start result) {id : String}
    (htask : result.taskId = some id) :
    attempt.taskId? = some id ∧ attempt.Settles maxRetriesPerTask start := by
  cases attempt with
  | untouched => exact absurd (h.1.symm.trans htask) (by simp)
  | failed handle failure => exact ⟨h.1.symm.trans htask, h.2.2.2⟩
  | split handle failure reason => exact ⟨h.1.symm.trans htask, trivial⟩
  | blocked handle failure => exact ⟨h.1.symm.trans htask, trivial⟩
  | completed handle => exact ⟨h.1.symm.trans htask, trivial⟩

/-- The result is about a task of the family. -/
def RunCycleResult.about (family : String → Bool) (result : RunCycleResult) : Bool :=
  result.taskId.any family

/-- Every result about a family uses up some of its work. -/
theorem History.workLeft_le (h : History limits False start results current) (hvalid : start.Valid)
    (hconsistent : start.Consistent) {family : String → Bool} (hfamily : FamilyClosed family) :
    results.countP (RunCycleResult.about family) +
        current.workLeft limits.maxRetriesPerTask family ≤
      start.workLeft limits.maxRetriesPerTask family := by
  induction h with
  | begin => exact Nat.le_of_eq (Nat.zero_add _)
  | operate _ hallowed => exact hallowed.elim
  | @cycle results w earlier rt hlimits request q c hrun hchoice ih =>
    obtain ⟨hbefore, hbeforeConsistent⟩ := earlier.keeps hvalid hconsistent
    obtain ⟨attempt, hshown, hreported, -⟩ := request.shown hbefore hrun hchoice
    rw [hlimits] at hshown hreported
    obtain ⟨hle, hlt⟩ :=
      hshown.justified.workLeft_lt hbefore hbeforeConsistent hfamily hshown.beside.book
    rw [List.countP_append]
    rcases resultsOf_cases q with hnone | ⟨result, hone, hcame⟩
    · rw [hnone, List.countP_nil]
      omega
    · rw [hone, List.countP_singleton]
      split
      · next habout =>
        obtain ⟨id, htask, hin⟩ := Option.any_eq_true _ _ |>.mp habout
        obtain ⟨hattempt, hsettles⟩ := (hreported result hcame).settles htask
        have hless := hlt id hsettles hattempt hin
        omega
      · omega

end

end AiOrchestrator
