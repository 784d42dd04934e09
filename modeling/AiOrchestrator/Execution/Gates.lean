import AiOrchestrator.Execution.ForbiddenDirectories
import AiOrchestrator.Execution.Observed
import AiOrchestrator.Execution.Writes

/-!
# The gates of a completion

What a run of a task has to have done before it saves a task as done, stated on the
record of the run: `DoneGates`. The preflight and the postflight decision were read back
from the store as allowing; the last response to the execution of the task carries its
evidence, and the changed files that git listed after it keep the policy; the last review
approved and the last test passed, where the kind of the task asks for them.

The changed files are those of the working tree (`WorkingTree`), of which the program sees what
git prints. `WorkingTree.ListingRead` says that it sees a violation where there is one; a command
that fails shows nothing.

The proof carries two invariants of the copy through the run, `Fresh` up to the completion
and `Marked` from there on, and beside them the facts of the record, each of which is kept
by every operation that brings no response of its own sort (`Unasked`).
-/

namespace AiOrchestrator

/-! ### Changed files -/

/-- The rules under which a task is executed. -/
def executionRules (task : BacklogTask) : ExecutionPolicyRule :=
  defaultRulesByPolicy (roleToolPolicy (routeTaskToRole task))

/-- **The working tree** of a run: what has changed in it after the operations of a record, newest
first, and how git prints it. -/
structure WorkingTree where
  git : GitQuoting
  changes : List RunEvent → List TreeChange

/-- An operation after those of a record is no listing of the changed files, or git printed what has
changed, and the check finds a violation where there is one. -/
def WorkingTree.ListingRead (tree : WorkingTree) (rules : ExecutionPolicyRule)
    (earlier : List RunEvent) : RunEvent → Prop
  | ⟨.git (.statusPorcelain _), .ok stdout, _⟩ =>
    tree.git.porcelain (tree.changes earlier) = stdout ∧
      (rules.ViolatedBy (tree.changes earlier) → rules.Finds tree.git (tree.changes earlier))
  | ⟨.git (.statusPorcelain _), .error _, _⟩ => False
  | _ => True

/-- All listings of a record were answered and read well. -/
inductive WorkingTree.ListingsRead (tree : WorkingTree) (rules : ExecutionPolicyRule) :
    List RunEvent → Prop
  | nil : tree.ListingsRead rules []
  | cons {e : RunEvent} {earlier : List RunEvent} (listing : tree.ListingRead rules earlier e)
      (rest : tree.ListingsRead rules earlier) : tree.ListingsRead rules (e :: earlier)

theorem WorkingTree.ListingsRead.head {tree : WorkingTree} {rules : ExecutionPolicyRule}
    {e : RunEvent} {earlier : List RunEvent} (h : tree.ListingsRead rules (e :: earlier)) :
    tree.ListingRead rules earlier e := by
  cases h with
  | cons listing rest => exact listing

theorem WorkingTree.ListingsRead.tail {tree : WorkingTree} {rules : ExecutionPolicyRule}
    {e : RunEvent} {earlier : List RunEvent} (h : tree.ListingsRead rules (e :: earlier)) :
    tree.ListingsRead rules earlier := by
  cases h with
  | cons listing rest => exact rest

/-- An event that lists the changed files under a root. -/
def lists (root : String) : RunEvent → Bool
  | ⟨.git (.statusPorcelain path), .ok _, _⟩ => path = root
  | _ => false

/-! ### Responses by sort -/

/-- A request to execute a task. -/
def asksExecution (_ : AgentRoleName) : RoleInput → Bool
  | .execute _ _ => true
  | _ => false

/-- A request to the reviewer. -/
def asksReview (name : AgentRoleName) : RoleInput → Bool
  | .judge _ _ => name = .reviewer
  | _ => false

/-- A request to the tester. -/
def asksTest (name : AgentRoleName) : RoleInput → Bool
  | .judge _ _ => name = .tester
  | _ => false

/-- The last response to a sort of request. -/
def lastResponse (asks : AgentRoleName → RoleInput → Bool) (record : List RunEvent) :
    Option Response :=
  (responses record).find? fun x => asks x.name x.input

/-- The event brings no response to such a request. -/
def Unasked (asks : AgentRoleName → RoleInput → Bool) (e : RunEvent) : Prop :=
  ∀ x, eventResponse e = some x → asks x.name x.input = false

instance (asks : AgentRoleName → RoleInput → Bool) (e : RunEvent) : Decidable (Unasked asks e) :=
  match h : eventResponse e with
  | none => isTrue fun x hx => by rw [h] at hx; cases hx
  | some y =>
    if hy : asks y.name y.input = false then
      isTrue fun x hx => by rw [h] at hx; cases hx; exact hy
    else isFalse fun hall => hy (hall y h)

theorem lastResponse_cons {asks : AgentRoleName → RoleInput → Bool} {e : RunEvent}
    (h : Unasked asks e) (record : List RunEvent) :
    lastResponse asks (e :: record) = lastResponse asks record := by
  unfold lastResponse
  cases hresponse : eventResponse e with
  | none => rw [responses_cons_of_none hresponse]
  | some x =>
    have hx := h x hresponse
    rw [responses_cons_of_some hresponse, List.find?_cons_of_neg (by simp [hx])]

theorem lastResponse_of_answered {asks : AgentRoleName → RoleInput → Bool} {name : AgentRoleName}
    {input : RoleInput} {response : RoleResponse name} {record : List RunEvent}
    (h : Answered name input response record) (hasks : asks name input = true) :
    lastResponse asks record = some ⟨name, input, response⟩ := by
  unfold Answered at h
  unfold lastResponse
  cases hresponses : responses record with
  | nil =>
    rw [hresponses] at h
    cases h
  | cons x xs =>
    rw [hresponses] at h
    cases h
    exact List.find?_cons_of_pos hasks

/-! ### The gates -/

/-- The completion-evidence rule. -/
structure CompletionEvidence (output : CodeExecutionView) : Prop where
  summary : ∃ summary, output.summary = some summary ∧ Text.isBlank summary = false
  mutation : output.changed = true → output.changedFiles ≠ [] ∧ output.evidence ≠ []
  noOp : output.changed = false → missingText output.noOpReason = false

theorem completionEvidence_of_ok {task : BacklogTask} {output : CodeExecutionView}
    {summary : String} (h : Runtime.enforceCompletionEvidence task output = .ok summary) :
    CompletionEvidence output := by
  unfold Runtime.enforceCompletionEvidence at h
  split at h
  · cases h
  · next text htext =>
    split_ifs at h with hblank hchanged hmissing hreason
    · refine ⟨⟨text, htext, Bool.eq_false_iff.mpr hblank⟩, fun _ => ?_, fun hnot => ?_⟩
      · push Not at hmissing
        exact ⟨List.ne_nil_of_length_pos (Nat.pos_of_ne_zero hmissing.1),
          List.ne_nil_of_length_pos (Nat.pos_of_ne_zero hmissing.2)⟩
      · rw [hchanged] at hnot
        cases hnot
    · refine ⟨⟨text, htext, Bool.eq_false_iff.mpr hblank⟩, fun hyes => ?_, fun _ => ?_⟩
      · exact absurd hyes hchanged
      · exact Bool.eq_false_iff.mpr hreason

/-- Every required check has a passing stage, if stages were reported. -/
def RequiredChecksPass (rules : ExecutionPolicyRule)
    (qualityStages : Option (List QualityStageResult)) : Prop :=
  ∀ stages, qualityStages = some stages → stages ≠ [] → ∀ check ∈ rules.requiredChecks,
    ∃ stage ∈ stages, stage.stage.text = check ∧ stage.status = .passing

theorem requiredChecksPass_of_ok {rules : ExecutionPolicyRule}
    {qualityStages : Option (List QualityStageResult)}
    (h : Runtime.enforceRequiredChecks rules qualityStages = .ok ()) :
    RequiredChecksPass rules qualityStages := by
  rintro stages rfl hstages check hcheck
  cases stages with
  | nil => exact absurd rfl hstages
  | cons first rest =>
    simp only [Runtime.enforceRequiredChecks] at h
    split_ifs at h with hmissing
    have hnil := not_not.mp hmissing
    have hpassed := (List.filter_eq_nil_iff.mp hnil) check hcheck
    simp only [Bool.not_eq_true', List.contains_iff_mem, Bool.not_eq_false, List.mem_map,
      List.mem_filter] at hpassed
    obtain ⟨stage, ⟨hmem, hstatus⟩, htext⟩ := hpassed
    exact ⟨stage, hmem, htext, by simpa using hstatus⟩

/-- The last execution of the task and the evidence of its output. -/
def Executed (task : BacklogTask) (record : List RunEvent) : Prop :=
  ∃ prompt response,
    lastResponse asksExecution record = some ⟨routeTaskToRole task, .execute task prompt, response⟩ ∧
      CompletionEvidence (asCodeExecutionOutput (routeTaskToRole task) response.output)

/-- What had changed when git listed the changed files after the last execution keeps the policy. -/
def ChangedFilesAdmitted (tree : WorkingTree) (task : BacklogTask) (root : String)
    (record : List RunEvent) : Prop :=
  ∃ later e earlier, record = later ++ e :: earlier ∧
    (∀ e' ∈ e :: later, Unasked asksExecution e') ∧ lists root e = true ∧
      ¬ (executionRules task).ViolatedBy (tree.changes earlier)

/-- The last review of the task approved it. -/
def Reviewed (task : BacklogTask) (record : List RunEvent) : Prop :=
  ∃ (result : Json Nat) (response : RoleResponse .reviewer) (review : ReviewResult),
    lastResponse asksReview record = some ⟨.reviewer, .judge task result, response⟩ ∧
      response.output = review ∧ review.approved = true ∧ review.blockingIssues = []

/-- The last test of the task passed, with all required checks. -/
def Tested (task : BacklogTask) (record : List RunEvent) : Prop :=
  ∃ (result : Json Nat) (response : RoleResponse .tester) (testing : TestExecutionResult),
    lastResponse asksTest record = some ⟨.tester, .judge task result, response⟩ ∧
      response.output = testing ∧ testing.passed = true ∧ testing.failures = [] ∧
        RequiredChecksPass (defaultRulesByPolicy (roleToolPolicy .tester)) testing.qualityStages

/-- **The gates** that a run has passed. -/
structure DoneGates (tree : WorkingTree) (run : Runtime.TaskRun) (record : List RunEvent) :
    Prop where
  preflight : PersistedAllow (preflightPolicyGate run.runId run.handle.task.id) record
  executed : Executed run.handle.task record
  changedFiles : ChangedFilesAdmitted tree run.handle.task run.workspaceRoot record
  reviewed : requiresReview run.handle.task = true → Reviewed run.handle.task record
  tested : requiresTesting run.handle.task = true → Tested run.handle.task record
  postflight : PersistedAllow (postflightPolicyGate run.runId run.handle.task.id) record

/-- The task at a key of the backlog is done. -/
def DoneAt (state : ProjectState) (key : String) : Prop :=
  ∃ task, state.backlog.tasks.get? key = some task ∧ task.status = .done

/-- **The obligation of a save**: a task of the copy that is done was done when the run began,
or is the run's own, and the run has passed the gates. -/
def SavesGated (run : Runtime.TaskRun) (start : ProjectState) : Op → Observed → Prop
  | .write (.save _), c =>
    ∀ tree : WorkingTree, tree.ListingsRead (executionRules run.handle.task) c.2 →
      ∀ key, DoneAt c.1.state key →
        DoneAt start key ∨ key = run.handle.key ∧ DoneGates tree run c.2
  | _, _ => True

/-- The rules of a run whose saves are gated. -/
def gatedRules (host : Host) (run : Runtime.TaskRun) (start : ProjectState) :
    Prog.Rules Op Op.Ans Observed where
  allowed := SavesGated run start
  effect := Prog.recorded (Op.effect host)

/-! ### Which tasks of the copy are done -/

theorem doneAt_setTaskStatus {state : ProjectState} {handle : TaskHandle}
    {status : BacklogTaskStatus} {key : String} (h : DoneAt (state.setTaskStatus handle status) key) :
    DoneAt state key ∨ key = handle.key ∧ status = .done := by
  obtain ⟨task, hget, hdone⟩ := h
  rw [ProjectState.setTaskStatus, Dict.get?_modify] at hget
  split at hget
  · next hkey =>
    obtain ⟨before, hbefore, rfl⟩ := Option.map_eq_some_iff.mp hget
    exact Or.inr ⟨hkey, hdone⟩
  · exact Or.inl ⟨task, hget, hdone⟩

theorem doneAt_addChildTask {state : ProjectState} {featureId : String} {child : BacklogTask}
    {key : String} (hchild : child.status ≠ .done) (h : DoneAt (state.addChildTask featureId child) key) :
    DoneAt state key := by
  obtain ⟨task, hget, hdone⟩ := h
  rw [ProjectState.addChildTask, Dict.get?_set] at hget
  split at hget
  · cases hget
    exact absurd hdone hchild
  · exact ⟨task, hget, hdone⟩

theorem rewriteCandidate_status (supersededTaskId completionTaskId : String)
    (childTaskIds : List String) (candidate : BacklogTask) :
    (ProjectState.rewriteCandidate supersededTaskId completionTaskId childTaskIds candidate).status =
      candidate.status := by
  unfold ProjectState.rewriteCandidate
  split_ifs <;> rfl

theorem doneAt_rewriteSupersededDependencies {state : ProjectState} {supersededTaskId : String}
    {completionTaskId : String} {childTasks : List BacklogTask} {key : String}
    (h : DoneAt (state.rewriteSupersededDependencies supersededTaskId completionTaskId childTasks)
      key) : DoneAt state key := by
  obtain ⟨task, hget, hdone⟩ := h
  rw [ProjectState.rewriteSupersededDependencies, Dict.get?_mapVals] at hget
  obtain ⟨before, hbefore, rfl⟩ := Option.map_eq_some_iff.mp hget
  rw [rewriteCandidate_status] at hdone
  exact ⟨before, hbefore, hdone⟩

theorem doneAt_splitTask {state : ProjectState} {handle : TaskHandle} {plan : SplitTaskPlan}
    {key : String} (hfirst : plan.firstChild.status ≠ .done)
    (hsecond : plan.secondChild.status ≠ .done) (h : DoneAt (state.splitTask handle plan) key) :
    DoneAt state key := by
  have hset := doneAt_addChildTask hfirst <| doneAt_addChildTask hsecond <|
    doneAt_rewriteSupersededDependencies h
  rcases doneAt_setTaskStatus hset with hbefore | ⟨-, hstatus⟩
  · exact hbefore
  · cases hstatus

/-- The updates after which a task may be done that was not done before. -/
def Update.marksDone : Update → Prop
  | .complete _ => True
  | .split _ plan => plan.firstChild.status = .done ∨ plan.secondChild.status = .done
  | _ => False

theorem doneAt_update {u : Update} (hu : ¬ u.marksDone) {state : ProjectState} {key : String}
    (h : DoneAt (u.apply state) key) : DoneAt state key := by
  cases u with
  | complete handle => exact absurd trivial hu
  | split handle plan =>
    exact doneAt_splitTask (fun hdone => hu (Or.inl hdone)) (fun hdone => hu (Or.inr hdone)) h
  | block handle =>
    rcases doneAt_setTaskStatus h with hbefore | ⟨-, hstatus⟩
    · exact hbefore
    · cases hstatus
  | reserve key' leaseOwner nowIso ttlMs =>
    simp only [Update.apply] at h
    split at h <;> exact h
  | resumeFailure failureId now =>
    simp only [Update.apply, ProjectState.resumeFailure] at h
    split at h
    · next state' failure hresume =>
      split at hresume
      · cases hresume
      · split_ifs at hresume
        split at hresume
        · cases hresume
          exact h
        · split_ifs at hresume
          · cases hresume
            rcases doneAt_setTaskStatus h with hbefore | ⟨-, hstatus⟩
            · exact hbefore
            · cases hstatus
          · cases hresume
            exact h
    · exact h
  | replayFailure failureId now =>
    simp only [Update.apply, ProjectState.replayFromFailureCheckpoint] at h
    split at h
    · next state' failure hreplay =>
      split at hreplay
      · cases hreplay
      · split at hreplay
        · cases hreplay
        · cases hreplay
          exact h
    · exact h
  | _ => exact h

/-- The operations after which a task of the copy may be done that was not done before. -/
def Op.marksDone : Op → Prop
  | .load => True
  | .update u => u.marksDone
  | _ => False

theorem doneAt_of_effect {host : Host} {o : Op} (ho : ¬ o.marksDone) {w w' : World} {x : o.Ans}
    (he : Op.effect host o w x w') {key : String} (h : DoneAt w'.state key) :
    DoneAt w.state key := by
  obtain ⟨answer, store, heq⟩ := he
  by_cases hupdate : ∃ u, o = .update u
  · obtain ⟨u, rfl⟩ := hupdate
    cases heq
    exact doneAt_update ho h
  by_cases hflush : o = .flush
  · subst hflush
    cases heq
    obtain ⟨steps, revision, hcopy⟩ := flushToState_copy w.shared w.state
    have hdone : DoneAt (flushToState w.shared w.state).1 key := h
    rw [hcopy] at hdone
    exact hdone
  · have hload : o ≠ .load := by
      rintro rfl
      exact ho trivial
    obtain ⟨revision, hcopy⟩ := copy_of_handle host answer
      { w with store := store } hload hflush fun u hu => hupdate ⟨u, hu⟩
    rw [heq] at hcopy
    have hdone : DoneAt (w.state.atRevision revision) key := hcopy ▸ h
    exact hdone

/-! ### Invariants of a run -/

section Invariants

variable (host : Host) (run : Runtime.TaskRun) (start : ProjectState)

/-- Up to the completion the copy has no new task that is done. -/
def Fresh (w : World) : Prop := ∀ key, DoneAt w.state key → DoneAt start key

/-- From the completion on the run's own task may be done. -/
def Marked (w : World) : Prop :=
  ∀ key, DoneAt w.state key → DoneAt start key ∨ key = run.handle.key

variable {host run start}

/-- An operation that is no save has no obligation. -/
theorem savesGated_of_kind {o : Op} (h : o.kind ≠ .save) (c : Observed) :
    SavesGated run start o c := by
  cases o with
  | write call =>
    cases call with
    | save events => exact absurd rfl h
    | _ => trivial
  | _ => trivial

/-- An invariant of the copy and a fact of the record are kept by operations that keep each. -/
theorem stable_of {P : Op → Prop} {J : World → Prop} {F : List RunEvent → Prop}
    (hsave : ∀ o, P o → o.kind ≠ .save)
    (hJ : ∀ o w x w', P o → J w → Op.effect host o w x w' → J w')
    (hF : ∀ (e : RunEvent) record, P e.op → F record → F (e :: record)) :
    Stable (gatedRules host run start) P (fun c => J c.1 ∧ F c.2) := by
  intro o c ho hc
  refine ⟨savesGated_of_kind (hsave o ho) c, fun x c' he => ⟨hJ o c.1 x c'.1 ho hc.1 he.1, ?_⟩⟩
  rw [he.2]
  exact hF ⟨o, x, c.1⟩ c.2 ho hc.2

theorem Fresh.effect {o : Op} (ho : ¬ o.marksDone) {w w' : World} {x : o.Ans} (h : Fresh start w)
    (he : Op.effect host o w x w') : Fresh start w' :=
  fun key hkey => h key (doneAt_of_effect ho he hkey)

theorem Marked.effect {o : Op} (ho : ¬ o.marksDone) {w w' : World} {x : o.Ans}
    (h : Marked run start w) (he : Op.effect host o w x w') : Marked run start w' :=
  fun key hkey => h key (doneAt_of_effect ho he hkey)

end Invariants

/-! ### Facts of the record -/

/-- A role call brings no response to a request of another sort. -/
theorem unasked_of_call {asks : AgentRoleName → RoleInput → Bool} {name : AgentRoleName}
    {input : RoleInput} (hasks : asks name input = false) {e : RunEvent}
    (h : CallOp name input e.op) : Unasked asks e := by
  intro x hx
  obtain ⟨o, answer, w⟩ := e
  cases h with
  | quiet hquiet =>
    rw [eventResponse_of_quiet hquiet] at hx
    cases hx
  | execute hinput =>
    cases answer with
    | error error => cases hx
    | ok response =>
      cases hx
      rw [hinput]
      exact hasks
  | step hinput =>
    cases answer with
    | error error => cases hx
    | ok result =>
      cases result with
      | toolRequest call => cases hx
      | finalOutput response =>
        cases hx
        rw [hinput]
        exact hasks

theorem unasked_of_plain {asks : AgentRoleName → RoleInput → Bool} {e : RunEvent}
    (h : e.op.kind.plain) : Unasked asks e := by
  intro x hx
  have hnone : eventResponse e = none := by
    apply eventResponse_eq_none
    · intro hkind
      rw [hkind] at h
      exact h
    · intro hkind
      rw [hkind] at h
      exact h
  rw [hnone] at hx
  cases hx

theorem Update.not_marksDone {u : Update} (h : u.kind = .assign) : ¬ u.marksDone := by
  cases u <;> first
    | exact fun hmarks => hmarks
    | cases h

theorem Op.not_marksDone_of_plain {o : Op} (h : o.kind.plain) : ¬ o.marksDone := by
  cases o with
  | load => exact absurd h id
  | update u =>
    refine Update.not_marksDone ?_
    cases u <;> first
      | rfl
      | exact absurd h id
  | _ => exact id

theorem Op.not_marksDone_of_call {name : AgentRoleName} {input : RoleInput} {o : Op}
    (h : CallOp name input o) : ¬ o.marksDone := by
  cases h with
  | quiet hquiet =>
    refine Op.not_marksDone_of_plain ?_
    exact OpKind.plain_of_quiet hquiet
  | execute hinput => exact id
  | step hinput => exact id

theorem ChangedFilesAdmitted.cons {tree : WorkingTree} {task : BacklogTask} {root : String}
    {record : List RunEvent} (h : ChangedFilesAdmitted tree task root record) {e : RunEvent}
    (he : Unasked asksExecution e) : ChangedFilesAdmitted tree task root (e :: record) := by
  obtain ⟨later, listing, earlier, hrecord, hsince, hlists, hadmitted⟩ := h
  refine ⟨e :: later, listing, earlier, congrArg (e :: ·) hrecord, ?_, hlists, hadmitted⟩
  intro e' he'
  rcases List.mem_cons.mp he' with rfl | hmem
  · exact hsince _ List.mem_cons_self
  · rcases List.mem_cons.mp hmem with rfl | hlater
    · exact he
    · exact hsince e' (List.mem_cons_of_mem listing hlater)

theorem Reviewed.cons {task : BacklogTask} {record : List RunEvent} (h : Reviewed task record)
    {e : RunEvent} (he : Unasked asksReview e) : Reviewed task (e :: record) := by
  obtain ⟨result, response, review, hlast, hrest⟩ := h
  exact ⟨result, response, review, (lastResponse_cons he record).trans hlast, hrest⟩

theorem Tested.cons {task : BacklogTask} {record : List RunEvent} (h : Tested task record)
    {e : RunEvent} (he : Unasked asksTest e) : Tested task (e :: record) := by
  obtain ⟨result, response, testing, hlast, hrest⟩ := h
  exact ⟨result, response, testing, (lastResponse_cons he record).trans hlast, hrest⟩

/-- What is known once the task has been executed. -/
structure Performed (run : Runtime.TaskRun) (prompt : OptimizedPrompt)
    (response : RoleResponse (routeTaskToRole run.handle.task)) (record : List RunEvent) :
    Prop where
  preflight : PersistedAllow (preflightPolicyGate run.runId run.handle.task.id) record
  response : lastResponse asksExecution record =
    some ⟨routeTaskToRole run.handle.task, .execute run.handle.task prompt, response⟩
  changedFiles : ∀ tree : WorkingTree,
    tree.ListingsRead (executionRules run.handle.task) record →
      ChangedFilesAdmitted tree run.handle.task run.workspaceRoot record

theorem Performed.cons {run : Runtime.TaskRun} {prompt : OptimizedPrompt}
    {response : RoleResponse (routeTaskToRole run.handle.task)} {record : List RunEvent}
    (h : Performed run prompt response record) {e : RunEvent} (he : Unasked asksExecution e) :
    Performed run prompt response (e :: record) where
  preflight := h.preflight.cons e
  response := (lastResponse_cons he record).trans h.response
  changedFiles tree hread := (h.changedFiles tree hread.tail).cons he

/-- What is known when the task is completed. -/
structure Ready (run : Runtime.TaskRun) (record : List RunEvent) : Prop where
  preflight : PersistedAllow (preflightPolicyGate run.runId run.handle.task.id) record
  executed : Executed run.handle.task record
  changedFiles : ∀ tree : WorkingTree,
    tree.ListingsRead (executionRules run.handle.task) record →
      ChangedFilesAdmitted tree run.handle.task run.workspaceRoot record
  reviewed : requiresReview run.handle.task = true → Reviewed run.handle.task record
  tested : requiresTesting run.handle.task = true → Tested run.handle.task record

theorem Ready.cons {run : Runtime.TaskRun} {record : List RunEvent} (h : Ready run record)
    {e : RunEvent} (he : e.op.kind.plain) : Ready run (e :: record) where
  preflight := h.preflight.cons e
  executed := by
    obtain ⟨prompt, response, hlast, hevidence⟩ := h.executed
    exact ⟨prompt, response, (lastResponse_cons (unasked_of_plain he) record).trans hlast, hevidence⟩
  changedFiles tree hread := (h.changedFiles tree hread.tail).cons (unasked_of_plain he)
  reviewed hrequires := (h.reviewed hrequires).cons (unasked_of_plain he)
  tested hrequires := (h.tested hrequires).cons (unasked_of_plain he)

theorem Ready.gates {run : Runtime.TaskRun} {record : List RunEvent} (h : Ready run record)
    (hpostflight : PersistedAllow (postflightPolicyGate run.runId run.handle.task.id) record)
    {tree : WorkingTree} (hread : tree.ListingsRead (executionRules run.handle.task) record) :
    DoneGates tree run record where
  preflight := h.preflight
  executed := h.executed
  changedFiles := h.changedFiles tree hread
  reviewed := h.reviewed
  tested := h.tested
  postflight := hpostflight

/-! ### The stages -/

section Stages

variable {rt : Runtime} {run : Runtime.TaskRun} {start : ProjectState}

/-- The start of the stages: nothing is completed yet, and the preflight decision allows. -/
abbrev Started (run : Runtime.TaskRun) (start : ProjectState) (c : Observed) : Prop :=
  Fresh start c.1 ∧ PersistedAllow (preflightPolicyGate run.runId run.handle.task.id) c.2

/-- What is known when the task has been executed and nothing is completed yet. -/
abbrev Executing (run : Runtime.TaskRun) (start : ProjectState) (prompt : OptimizedPrompt)
    (response : RoleResponse (routeTaskToRole run.handle.task)) (c : Observed) : Prop :=
  Fresh start c.1 ∧ Performed run prompt response c.2

theorem kind_ne_save_of_plain {o : Op} (h : o.kind.plain) : o.kind ≠ .save := by
  intro hkind
  rw [hkind] at h
  exact h

theorem kind_ne_save_of_call {name : AgentRoleName} {input : RoleInput} {o : Op}
    (h : CallOp name input o) : o.kind ≠ .save := by
  cases h with
  | quiet hquiet =>
    exact quiet_kind (P := fun kind => kind ≠ .save) (by decide) (by decide) (by decide) (by decide)
      (by decide) hquiet
  | execute hinput =>
    rename_i req context
    cases hreq : req.input <;> simp [Op.kind, RoleInput.kind, hreq]
  | step hinput =>
    rename_i req context observations
    cases hreq : req.input <;> simp [Op.kind, RoleInput.kind, hreq]

/-- Facts that survive every event are kept with `Fresh` by all operations before the
completion but the saves. -/
theorem stable_fresh {P : Op → Prop} {F : List RunEvent → Prop}
    (hP : ∀ o, P o → ¬ o.marksDone ∧ o.kind ≠ .save)
    (hF : ∀ (e : RunEvent) record, P e.op → F record → F (e :: record)) :
    Stable (gatedRules rt.host run start) P (fun c => Fresh start c.1 ∧ F c.2) :=
  stable_of (fun o ho => (hP o ho).2) (fun o _ _ _ ho h he => h.effect (hP o ho).1 he) hF

theorem stable_record {P : Op → Prop} {F : List RunEvent → Prop}
    (hsave : ∀ o, P o → o.kind ≠ .save)
    (hF : ∀ (e : RunEvent) record, P e.op → F record → F (e :: record)) :
    Stable (gatedRules rt.host run start) P (fun c => F c.2) := by
  intro o c ho hc
  refine ⟨savesGated_of_kind (hsave o ho) c, fun x c' he => ?_⟩
  have hnext : F (⟨o, x, c.1⟩ :: c.2) := hF ⟨o, x, c.1⟩ c.2 ho hc
  rw [← he.2] at hnext
  exact hnext

theorem plain_before {o : Op} (h : o.kind.plain) : ¬ o.marksDone ∧ o.kind ≠ .save :=
  ⟨Op.not_marksDone_of_plain h, kind_ne_save_of_plain h⟩

theorem call_before {name : AgentRoleName} {input : RoleInput} {o : Op}
    (h : CallOp name input o) : ¬ o.marksDone ∧ o.kind ≠ .save :=
  ⟨Op.not_marksDone_of_call h, kind_ne_save_of_call h⟩

/-- The listing of the changed files is in the record; what it shows is admitted if what the
program reads from it is. -/
theorem listWorkspaceChangedFiles_spec (prompt : OptimizedPrompt)
    (response : RoleResponse (routeTaskToRole run.handle.task)) :
    Act.Triple (gatedRules rt.host run start)
      (fun c => Started run start c ∧ lastResponse asksExecution c.2 =
        some ⟨routeTaskToRole run.handle.task, .execute run.handle.task prompt, response⟩)
      (Runtime.listWorkspaceChangedFiles run.workspaceRoot)
      (fun files c => (executionRules run.handle.task).Admits files →
        Executing run start prompt response c)
      (fun _ _ => True) := by
  have hkept : ∀ {c c' : Observed} {x}, (Started run start c ∧ lastResponse asksExecution c.2 =
        some ⟨routeTaskToRole run.handle.task, .execute run.handle.task prompt, response⟩) →
      (gatedRules rt.host run start).effect (.git (.statusPorcelain run.workspaceRoot)) c x c' →
      Fresh start c'.1 ∧
        PersistedAllow (preflightPolicyGate run.runId run.handle.task.id) c'.2 ∧
        lastResponse asksExecution c'.2 =
          some ⟨routeTaskToRole run.handle.task, .execute run.handle.task prompt, response⟩ := by
    intro c c' x hc he
    refine ⟨hc.1.1.effect id he.1, ?_⟩
    rw [he.2]
    exact ⟨hc.1.2.cons _, (lastResponse_cons (unasked_of_plain (by exact trivial)) c.2).trans hc.2⟩
  refine Act.Triple.bind (Q := fun stdout c =>
    (executionRules run.handle.task).Admits (stdout.elim [] listedFiles) →
      Executing run start prompt response c) ?_ fun stdout => ?_
  · refine Act.Triple.catching (E := fun _ c => Executing run start prompt response c) ?_
      fun _ => Act.Triple.pure fun c hc _ => hc
    refine Act.Triple.bind (Q := fun (stdout : String) c =>
      (executionRules run.handle.task).Admits (listedFiles stdout) →
        Executing run start prompt response c) ?_ fun stdout => Act.Triple.pure fun c hc => hc
    refine triple_request (fun c hc => trivial) fun c x c' hc he => ?_
    obtain ⟨hfresh, hpreflight, hlast⟩ := hkept hc he
    cases x with
    | error error =>
      -- A listing that fails is not read well, so nothing is asked of the changed files.
      refine ⟨hfresh, hpreflight, hlast, fun tree hread => ?_⟩
      rw [he.2] at hread
      exact absurd hread.head id
    -- Git printed the entries of the changed tree; if they break a rule, the listed files are not
    -- admitted and the run does not come here.
    | ok stdout =>
      intro hadmits
      refine ⟨hfresh, hpreflight, hlast, fun tree hread => ?_⟩
      rw [he.2] at hread ⊢
      obtain ⟨hprinted, hfinds⟩ := hread.head
      refine ⟨[], _, c.2, rfl, fun e' hmem => ?_, decide_eq_true rfl, fun hviolated => ?_⟩
      · rw [List.mem_singleton.mp hmem]
        exact unasked_of_plain (by exact trivial)
      · rw [← hprinted] at hadmits
        exact (not_admits_porcelain_iff (wellNamed_defaultRulesByPolicy _) _ _).mpr
          (hfinds hviolated) hadmits
  · cases stdout with
    | none => exact Act.Triple.pure fun c hc => hc
    | some stdout => exact Act.Triple.pure fun c hc => hc

/-- **The execution** of the task. -/
theorem executeTask_spec (prompt : OptimizedPrompt) :
    Act.Triple (gatedRules rt.host run start) (Started run start) (rt.executeTask run prompt)
      (fun response c => Executing run start prompt response c) (fun _ _ => True) := by
  have hcall : Stable (gatedRules rt.host run start)
      (CallOp (routeTaskToRole run.handle.task) (.execute run.handle.task prompt))
      (Started run start) :=
    stable_fresh (fun o ho => call_before ho) fun e record _ h => h.cons e
  refine Act.Triple.bind (Q := fun response c => Started run start c ∧
    lastResponse asksExecution c.2 =
      some ⟨routeTaskToRole run.handle.task, .execute run.handle.task prompt, response⟩) ?_
    fun response => ?_
  · refine (callRole_spec rfl rt run _ _ _ hcall).imp (fun _ h => h) ?_ (fun _ _ _ => trivial)
    exact fun response c h => ⟨h.1, lastResponse_of_answered h.2 rfl⟩
  refine Act.Triple.bind (Q := fun _ c => Started run start c ∧
    lastResponse asksExecution c.2 =
      some ⟨routeTaskToRole run.handle.task, .execute run.handle.task prompt, response⟩) ?_
    fun state => ?_
  · refine triple_request (fun c hc => trivial) fun c x c' hc he => ?_
    have hkept : Started run start c' ∧ lastResponse asksExecution c'.2 =
        some ⟨routeTaskToRole run.handle.task, .execute run.handle.task prompt, response⟩ := by
      refine ⟨⟨hc.1.1.effect id he.1, ?_⟩, ?_⟩
      · rw [he.2]
        exact hc.1.2.cons _
      · rw [he.2]
        exact (lastResponse_cons (unasked_of_plain (by exact trivial)) c.2).trans hc.2
    cases x with
    | error error => trivial
    | ok state => exact hkept
  refine Act.Triple.bind (Q := fun _ c => Executing run start prompt response c) ?_ fun _ => ?_
  · refine Act.Triple.bind (listWorkspaceChangedFiles_spec prompt response) fun files => ?_
    intro c hc
    rw [Act.wp_ofExcept]
    cases hcheck : Runtime.checkChangedFiles _ _ files with
    | error error => trivial
    | ok u => exact hc (checkChangedFiles_ok_iff.mp hcheck)
  · have hplain : Stable (gatedRules rt.host run start) (fun o => o.kind.plain)
        (Executing run start prompt response) :=
      stable_fresh (fun o ho => plain_before ho) fun e record he h => h.cons (unasked_of_plain he)
    have hevent := hplain.keeps (does_recordEvent (P := OpKind.plain) trivial trivial
      .roleExecuted
      [("taskId", .str run.handle.task.id),
        ("role", .str (routeTaskToRole run.handle.task).text)] run.runId)
    refine Act.Triple.bind (hevent.imp (fun _ h => h) (fun _ _ h => h) fun _ _ _ => trivial)
      fun _ => Act.Triple.pure fun c hc => hc

/-- **The review**: when it lets the task go on, it approved it. -/
theorem reviewTask_spec (prompt : OptimizedPrompt)
    (response : RoleResponse (routeTaskToRole run.handle.task)) (result : Json Nat) :
    Act.Triple (gatedRules rt.host run start) (Executing run start prompt response)
      (rt.reviewTask run result)
      (fun approved c => Executing run start prompt response c ∧
        (approved = true → Reviewed run.handle.task c.2))
      (fun _ _ => True) := by
  have hcall : Stable (gatedRules rt.host run start)
      (CallOp .reviewer (.judge run.handle.task result)) (Executing run start prompt response) :=
    stable_fresh (fun o ho => call_before ho) fun e record he h => h.cons (unasked_of_call rfl he)
  refine Act.Triple.bind ((callRole_spec rfl rt run _ _ _ hcall).imp (fun _ h => h)
    (fun _ _ h => h) fun _ _ _ => trivial) fun answer => ?_
  have hanswered := stable_answered rfl hcall answer
  have hevent : ∀ eventType, Act.Triple (gatedRules rt.host run start)
      (fun c => Executing run start prompt response c ∧
        Answered .reviewer (.judge run.handle.task result) answer c.2)
      (recordEvent eventType [("taskId", .str run.handle.task.id)] run.runId)
      (fun _ c => Executing run start prompt response c ∧
        Answered .reviewer (.judge run.handle.task result) answer c.2) (fun _ _ => True) :=
    fun eventType =>
      (hanswered.keeps (does_recordEvent (P := OpKind.quiet) trivial trivial eventType
        [("taskId", .str run.handle.task.id)] run.runId)).imp (fun _ h => h) (fun _ _ h => h)
          fun _ _ _ => trivial
  dsimp only
  split
  · refine Act.Triple.bind (hevent _) fun _ => Act.Triple.pure fun c hc => ⟨hc.1, ?_⟩
    intro hfalse
    cases hfalse
  · next happroves =>
    refine Act.Triple.bind (hevent _) fun _ => Act.Triple.pure fun c hc => ⟨hc.1, fun _ => ?_⟩
    have hlast := @lastResponse_of_answered asksReview _ _ _ _ hc.2 rfl
    simp only [Bool.or_eq_true, Bool.not_eq_true', decide_eq_true_eq, not_or, Bool.not_eq_false,
      Nat.not_lt, Nat.le_zero, List.length_eq_zero_iff, gt_iff_lt] at happroves
    exact ⟨result, answer, answer.output, hlast, rfl, happroves.1, happroves.2⟩

/-- **The tests**: when they let the task go on, they passed, with the required checks. -/
theorem testTask_spec {F : List RunEvent → Prop}
    (hF : ∀ (e : RunEvent) record, Unasked asksExecution e → Unasked asksReview e →
      F record → F (e :: record)) (result : Json Nat) :
    Act.Triple (gatedRules rt.host run start) (fun c => Fresh start c.1 ∧ F c.2)
      (rt.testTask run result)
      (fun passed c => Fresh start c.1 ∧ F c.2 ∧ (passed = true → Tested run.handle.task c.2))
      (fun _ _ => True) := by
  have hcall : Stable (gatedRules rt.host run start)
      (CallOp .tester (.judge run.handle.task result)) (fun c => Fresh start c.1 ∧ F c.2) :=
    stable_fresh (fun o ho => call_before ho) fun e record he h =>
      hF e record (unasked_of_call rfl he) (unasked_of_call rfl he) h
  refine Act.Triple.bind (Q := fun answer c => Fresh start c.1 ∧ F c.2 ∧
    lastResponse asksTest c.2 = some ⟨.tester, .judge run.handle.task result, answer⟩) ?_
    fun answer => ?_
  · refine (callRole_spec rfl rt run _ _ _ hcall).imp (fun _ h => h) ?_ (fun _ _ _ => trivial)
    exact fun answer c h => ⟨h.1.1, h.1.2, lastResponse_of_answered h.2 rfl⟩
  -- What follows the call is plain, and keeps that it was the last one of the tester.
  have hplain : Stable (gatedRules rt.host run start) (fun o => o.kind.plain)
      (fun c => Fresh start c.1 ∧ F c.2 ∧ lastResponse asksTest c.2 =
        some ⟨.tester, .judge run.handle.task result, answer⟩) :=
    stable_fresh (F := fun record => F record ∧ lastResponse asksTest record =
      some ⟨.tester, .judge run.handle.task result, answer⟩)
      (fun o ho => plain_before ho) fun e record he h => ⟨hF e record
        (unasked_of_plain he) (unasked_of_plain he) h.1,
        (lastResponse_cons (unasked_of_plain he) record).trans h.2⟩
  have hkeeps : ∀ {β : Type} {m : Action β}, Does OpKind.plain m →
      Act.Triple (gatedRules rt.host run start)
        (fun c => Fresh start c.1 ∧ F c.2 ∧ lastResponse asksTest c.2 =
          some ⟨.tester, .judge run.handle.task result, answer⟩) m
        (fun _ c => Fresh start c.1 ∧ F c.2 ∧ lastResponse asksTest c.2 =
          some ⟨.tester, .judge run.handle.task result, answer⟩) (fun _ _ => True) :=
    fun hm => (hplain.keeps hm).imp (fun _ h => h) (fun _ _ h => h) fun _ _ _ => trivial
  have hstages := does_persistQualityStageArtifacts (P := OpKind.plain) trivial trivial trivial
  have hevent : ∀ eventType, Does OpKind.plain
      (recordEvent eventType [("taskId", .str run.handle.task.id)] run.runId) := fun eventType =>
    does_recordEvent trivial trivial eventType _ _
  dsimp only
  split
  · refine Act.Triple.bind (hkeeps (does_request trivial)) fun _ => ?_
    refine Act.Triple.bind (hkeeps (hstages _ _ _)) fun _ => ?_
    refine Act.Triple.bind (hkeeps (hevent _)) fun _ => Act.Triple.pure fun c hc => ?_
    refine ⟨hc.1, hc.2.1, ?_⟩
    intro hfalse
    cases hfalse
  · next hpasses =>
    simp only [Bool.or_eq_true, Bool.not_eq_true', decide_eq_true_eq, not_or, Bool.not_eq_false,
      Nat.not_lt, Nat.le_zero, List.length_eq_zero_iff, gt_iff_lt] at hpasses
    refine Act.Triple.bind (hkeeps (does_request trivial)) fun _ => ?_
    refine Act.Triple.bind (Q := fun _ c =>
      (Fresh start c.1 ∧ F c.2 ∧ lastResponse asksTest c.2 =
        some ⟨.tester, .judge run.handle.task result, answer⟩) ∧
        Tested run.handle.task c.2) ?_ fun _ => ?_
    · intro c hc
      rw [Act.wp_ofExcept]
      cases hcheck : Runtime.enforceRequiredChecks _ _ with
      | error error => trivial
      | ok u =>
        exact ⟨hc, result, answer, answer.output, hc.2.2, rfl, hpasses.1, hpasses.2,
          requiredChecksPass_of_ok hcheck⟩
    · have htested : Stable (gatedRules rt.host run start) (fun o => o.kind.plain)
          (fun c => (Fresh start c.1 ∧ F c.2 ∧ lastResponse asksTest c.2 =
            some ⟨.tester, .judge run.handle.task result, answer⟩) ∧
            Tested run.handle.task c.2) := by
        refine hplain.and ?_
        exact stable_record (fun o ho => kind_ne_save_of_plain ho)
          fun e record he h => h.cons (unasked_of_plain he)
      have hrest : ∀ {β : Type} {m : Action β}, Does OpKind.plain m → _ := fun {β} {m} hm =>
        (htested.keeps (m := m) hm).imp (fun _ h => h) (fun _ _ h => h) fun _ _ _ => trivial
      refine Act.Triple.bind (hrest (hstages _ _ _)) fun _ => ?_
      refine Act.Triple.bind (hrest (hevent _)) fun _ => Act.Triple.pure fun c hc => ?_
      exact ⟨hc.1.1, hc.1.2.1, fun _ => hc.2⟩

/-- **The completion**: its save is gated. -/
theorem completeTask_spec (summary : String) :
    Act.Triple (gatedRules rt.host run start) (fun c => Fresh start c.1 ∧ Ready run c.2)
      (rt.completeTask run summary) (fun _ _ => True) (fun _ _ => True) := by
  have hmarked : ∀ {F : List RunEvent → Prop},
      (∀ (e : RunEvent) record, e.op.kind.plain → F record → F (e :: record)) →
        Stable (gatedRules rt.host run start) (fun o => o.kind.plain)
          (fun c => Marked run start c.1 ∧ F c.2) := fun hF =>
    stable_of (fun o ho => kind_ne_save_of_plain ho)
      (fun o _ _ _ ho h he => h.effect (Op.not_marksDone_of_plain ho) he) hF
  have hready := hmarked (F := Ready run) fun e record he h => h.cons he
  have hkeeps : ∀ {β : Type} {m : Action β}, Does OpKind.plain m →
      Act.Triple (gatedRules rt.host run start)
        (fun c => Marked run start c.1 ∧ Ready run c.2) m
        (fun _ c => Marked run start c.1 ∧ Ready run c.2) (fun _ _ => True) := fun hm =>
    (hready.keeps hm).imp (fun _ h => h) (fun _ _ h => h) fun _ _ _ => trivial
  have hartifact := does_newArtifact (P := OpKind.plain) trivial .runSummary
  have hrecord := does_recordArtifact (P := OpKind.plain) trivial trivial
  -- The task is marked in the run's copy: done tasks are those of before and this one.
  refine Act.Triple.bind (Q := fun _ c => Marked run start c.1 ∧ Ready run c.2) ?_ fun _ => ?_
  · refine triple_request (fun c hc => trivial) fun c x c' hc he => ?_
    obtain ⟨⟨answer, store, heq⟩, hlog⟩ := he
    have hmarks : Marked run start c'.1 := by
      have hstate : c'.1.state = c.1.state.completeTask run.handle :=
        (congrArg (fun r => r.2.state) heq).symm
      intro key hkey
      rw [hstate] at hkey
      rcases doneAt_setTaskStatus hkey with hbefore | ⟨rfl, -⟩
      · exact Or.inl (hc.1 key hbefore)
      · exact Or.inr rfl
    have hready : Ready run c'.2 := by
      rw [hlog]
      exact {
        preflight := hc.2.preflight.cons _
        executed := by
          obtain ⟨prompt, response, hlast, hevidence⟩ := hc.2.executed
          exact ⟨prompt, response, (lastResponse_cons (fun _ h => by cases h) c.2).trans hlast,
            hevidence⟩
        changedFiles := fun tree hread =>
          (hc.2.changedFiles tree hread.tail).cons fun _ h => by cases h
        reviewed := fun hrequires => (hc.2.reviewed hrequires).cons fun _ h => by cases h
        tested := fun hrequires => (hc.2.tested hrequires).cons fun _ h => by cases h }
    cases x with
    | error error => trivial
    | ok u => exact ⟨hmarks, hready⟩
  -- Artifacts, events and the git lifecycle leave the marks and the record's gates alone.
  refine Act.Triple.bind (hkeeps (hartifact _ _)) fun taskSummaryArtifact => ?_
  refine Act.Triple.bind (hkeeps (hartifact _ _)) fun runSummaryArtifact => ?_
  refine Act.Triple.bind (hkeeps (hrecord _)) fun _ => ?_
  refine Act.Triple.bind (hkeeps (hrecord _)) fun _ => ?_
  refine Act.Triple.bind (hkeeps (does_request trivial)) fun _ => ?_
  refine Act.Triple.bind (hkeeps (does_request trivial)) fun _ => ?_
  refine Act.Triple.bind (hkeeps (does_completeGitLifecycle trivial rt _ trivial trivial trivial
    trivial)) fun gitLifecycleStatus => ?_
  -- From here on the record also has the postflight decision.
  have hpost := persistAndRequire_spec rfl (postflightPolicyGate run.runId run.handle.task.id)
    (hready.mono fun o ho => by
      rcases ho with hkind | hkind | hkind <;> rw [hkind] <;> trivial)
  refine Act.Triple.bind (hpost.imp (fun _ h => h) (fun _ _ h => h) fun _ _ _ => trivial)
    fun _ => ?_
  have hgated : Stable (gatedRules rt.host run start) (fun o => o.kind.plain)
      (fun c => (Marked run start c.1 ∧ Ready run c.2) ∧
        PersistedAllow (postflightPolicyGate run.runId run.handle.task.id) c.2) :=
    hready.and (stable_record (fun o ho => kind_ne_save_of_plain ho) fun e record _ h => h.cons e)
  have hkept : ∀ {β : Type} {m : Action β}, Does OpKind.plain m → _ := fun {β} {m} hm =>
    (hgated.keeps (m := m) hm).imp (fun _ h => h) (fun _ _ h => h) fun _ _ _ => trivial
  refine Act.Triple.bind (hkept (does_newEvent (P := OpKind.plain) trivial .stateCommitted
    [("taskId", .str run.handle.task.id)] run.runId)) fun stateCommittedEvent => ?_
  refine Act.Triple.bind (hkept (does_request trivial)) fun _ => ?_
  refine Act.Triple.bind (Q := fun _ _ => True) ?_ fun _ => ?_
  · refine Act.Triple.bind (hkept (does_request trivial)) fun _ => ?_
    refine triple_request (fun c hc => ?_) fun c x c' _ _ => ?_
    -- The final save: a task saved as done was done at the start, or is this one with its gates.
    · intro tree hread key hkey
      rcases hc.1.1 key hkey with hbefore | rfl
      · exact Or.inl hbefore
      · exact Or.inr ⟨rfl, hc.1.2.gates hc.2 hread⟩
    · cases x <;> trivial
  · cases gitLifecycleStatus <;> exact Act.Triple.pure fun _ _ => trivial

/-- The failure handler saves no task as done. -/
theorem handleFailure_spec (role : RuntimeFailureRole) (reason runId : String) :
    Act.Keeps (gatedRules rt.host run start) (fun c => Fresh start c.1)
      (rt.handleFailure run.handle role reason runId) := by
  refine Stable.keeps (P := FailureOp run.handle) ?_ (uses_handleFailure rt run.handle role reason
    runId)
  intro o c ho hc
  have hmarks : ¬ o.marksDone := by
    cases ho with
    | record h =>
      refine Op.not_marksDone_of_plain ?_
      rcases h with hkind | hkind | hkind | hkind <;> rw [hkind] <;> trivial
    | split reason =>
      rintro (hdone | hdone) <;> cases hdone
    | count | noteFailure | flush | block | save => exact id
  refine ⟨?_, fun x c' he => hc.effect hmarks he.1⟩
  by_cases hsave : o.kind = .save
  · cases ho with
    | save events => exact fun _ _ key hkey => Or.inl (hc key hkey)
    | record h => rcases h with hkind | hkind | hkind | hkind <;> simp [hkind] at hsave
    | count | noteFailure | flush | split | block => cases hsave
  · exact savesGated_of_kind hsave c

/-- What is plain keeps the copy fresh. -/
theorem plain_spec {β : Type} {m : Action β} (hm : Does OpKind.plain m) :
    Act.Triple (gatedRules rt.host run start) (fun c => Fresh start c.1) m
      (fun _ c => Fresh start c.1) (fun _ _ => True) := by
  have hfresh : Stable (gatedRules rt.host run start) (fun o => o.kind.plain)
      (fun c => Fresh start c.1 ∧ True) :=
    stable_fresh (F := fun _ => True) (fun o ho => plain_before ho) fun _ _ _ h => h
  exact (hfresh.keeps hm).imp (fun _ h => ⟨h, trivial⟩) (fun _ _ h => h.1) fun _ _ _ => trivial

/-- The preflight decision. -/
theorem preflight_spec :
    Act.Triple (gatedRules rt.host run start) (fun c => Fresh start c.1)
      (PolicyDecisionRecorder.persistAndRequire
        (preflightPolicyGate run.runId run.handle.task.id))
      (fun _ c => Started run start c) (fun _ _ => True) := by
  have hfresh : Stable (gatedRules rt.host run start)
      (fun o => o.kind = .observe ∨ o.kind = .note ∨ o.kind = .assign)
      (fun c => Fresh start c.1 ∧ True) := by
    refine stable_fresh (F := fun _ => True) (fun o ho => plain_before ?_) fun _ _ _ h => h
    rcases ho with hkind | hkind | hkind <;> rw [hkind] <;> trivial
  exact (persistAndRequire_spec rfl _ hfresh).imp (fun _ h => ⟨h, trivial⟩)
    (fun _ _ h => ⟨h.1.1, h.2⟩) fun _ _ _ => trivial

/-- The stage of the prompt engineer. -/
theorem optimizePrompt_spec :
    Act.Triple (gatedRules rt.host run start) (Started run start) (rt.optimizePrompt run)
      (fun _ c => Started run start c) (fun _ _ => True) := by
  have hstarted : Stable (gatedRules rt.host run start)
      (fun o => o.kind.plain ∨ o.kind = .role) (Started run start) := by
    refine stable_fresh (fun o ho => ?_) fun e record _ h => h.cons e
    rcases ho with ho | ho
    · exact plain_before ho
    · refine ⟨?_, by rw [ho]; decide⟩
      cases o with
      | load => cases ho
      | update u => cases u <;> cases ho
      | _ => exact id
  have hprompt := hstarted.keeps <| does_optimizePrompt
    (P := fun kind => kind.plain ∨ kind = .role) rt run (Or.inl trivial) (Or.inl trivial)
    (Or.inl trivial) (Or.inl trivial) (Or.inl trivial) (Or.inl trivial) (Or.inl trivial)
    (Or.inr rfl)
  exact hprompt.imp (fun _ h => h) (fun _ _ h => h) fun _ _ _ => trivial

/-- The `try` block of a run. -/
theorem runTaskBody_spec :
    Act.Triple (gatedRules rt.host run start) (fun c => Fresh start c.1) (rt.runTaskBody run)
      (fun _ _ => True) (fun _ _ => True) := by
  refine Act.Triple.bind (plain_spec (does_request trivial)) fun _ => ?_
  refine Act.Triple.bind (plain_spec (does_recordEvent trivial trivial _ _ _)) fun _ => ?_
  refine Act.Triple.bind preflight_spec fun _ => ?_
  refine Act.Triple.bind optimizePrompt_spec fun prompt => ?_
  refine Act.Triple.bind (executeTask_spec prompt) fun response => ?_
  have hfailure : ∀ role reason, Act.Triple (gatedRules rt.host run start)
      (fun c => Fresh start c.1) (rt.handleFailure run.handle role reason run.runId)
      (fun _ _ => True) (fun _ _ => True) := fun role reason =>
    (handleFailure_spec role reason run.runId).imp (fun _ h => h) (fun _ _ _ => trivial)
      fun _ _ _ => trivial
  refine Act.Triple.bind (Q := fun approved c => Executing run start prompt response c ∧
    (approved = true → requiresReview run.handle.task = true → Reviewed run.handle.task c.2)) ?_
    fun approved => ?_
  · split
    · refine (reviewTask_spec prompt response response.payload).imp (fun _ h => h) ?_
        (fun _ _ h => h)
      exact fun approved c h => ⟨h.1, fun happroved _ => h.2 happroved⟩
    · next hreview => exact Act.Triple.pure fun c hc => ⟨hc, fun _ h => absurd h hreview⟩
  split
  · refine Act.Triple.bind (Q := fun _ _ => True) ?_ fun _ => Act.Triple.pure fun _ _ => trivial
    exact (hfailure .reviewer "review_rejected").imp (fun _ h => h.1.1) (fun _ _ h => h)
      fun _ _ h => h
  · next happroved =>
    have hyes : approved = true := by simpa using happroved
    refine Act.Triple.bind (Q := fun passed c => Fresh start c.1 ∧
      (Performed run prompt response c.2 ∧
        (requiresReview run.handle.task = true → Reviewed run.handle.task c.2)) ∧
      (passed = true → requiresTesting run.handle.task = true → Tested run.handle.task c.2)) ?_
      fun passed => ?_
    · split
      · have htests := @testTask_spec rt run start
          (fun record => Performed run prompt response record ∧
            (requiresReview run.handle.task = true → Reviewed run.handle.task record))
          (fun e record hexecution hreview h =>
            ⟨h.1.cons hexecution, fun hrequires => (h.2 hrequires).cons hreview⟩)
          response.payload
        refine htests.imp (fun c h => ⟨h.1.1, h.1.2, h.2 hyes⟩) ?_ (fun _ _ h => h)
        exact fun passed c h => ⟨h.1, h.2.1, fun hpassed _ => h.2.2 hpassed⟩
      · next htesting =>
        refine Act.Triple.pure fun c hc => ⟨hc.1.1, ⟨hc.1.2, hc.2 hyes⟩, ?_⟩
        exact fun _ h => absurd h htesting
    split
    · refine Act.Triple.bind (Q := fun _ _ => True) ?_ fun _ => Act.Triple.pure fun _ _ => trivial
      exact (hfailure .tester "test_failed").imp (fun _ h => h.1) (fun _ _ h => h) fun _ _ h => h
    · next hpassed =>
      have hpass : passed = true := by simpa using hpassed
      refine Act.Triple.bind (Q := fun _ c => Fresh start c.1 ∧ Ready run c.2) ?_ fun summary =>
        completeTask_spec summary
      intro c hc
      rw [Act.wp_ofExcept]
      cases hevidence : Runtime.enforceCompletionEvidence run.handle.task _ with
      | error error => trivial
      | ok summary =>
        refine ⟨hc.1, hc.2.1.1.preflight, ?_, hc.2.1.1.changedFiles, hc.2.1.2, hc.2.2 hpass⟩
        exact ⟨prompt, response, hc.2.1.1.response, completionEvidence_of_ok hevidence⟩

/-- **The run**: every save of it is gated. -/
theorem runTask_spec :
    Act.Triple (gatedRules rt.host run start) (fun c => Fresh start c.1) (rt.runTask run)
      (fun _ _ => True) (fun _ _ => True) := by
  have htrue : Stable (gatedRules rt.host run start) (fun o => o.kind.plain) (fun _ => True) :=
    stable_record (F := fun _ => True) (fun o ho => kind_ne_save_of_plain ho)
      fun _ _ _ _ => trivial
  refine Act.Triple.bind (plain_spec (does_request trivial)) fun state => ?_
  refine Act.Triple.bind (plain_spec (does_request trivial)) fun _ => ?_
  refine Act.Triple.bind (plain_spec (does_request trivial)) fun _ => ?_
  have hfinally : ∀ outcome, Act.Triple (gatedRules rt.host run start) (fun _ => True)
      (do
        Runtime.recordRunCostSummary run outcome
        request (.updateShared .clearBuffer))
      (fun _ _ => True) (fun _ _ => True) := fun outcome =>
    htrue.keeps <| does_bind (P := OpKind.plain)
      (does_recordRunCostSummary run trivial trivial trivial outcome)
      fun _ => does_request (o := .updateShared .clearBuffer) trivial
  refine Act.Triple.bind (Q := fun _ _ => True) ?_ fun result => Act.Triple.pure fun _ _ => trivial
  exact Act.Triple.finallyDo runTaskBody_spec (fun _ => hfinally _) fun _ => hfinally _

end Stages

end AiOrchestrator
