import AiOrchestrator.Execution.Observed
import AiOrchestrator.Execution.Orchestrator
import AiOrchestrator.Execution.Writes

/-!
# Which task a cycle runs

A cycle hands one task to its workspace. The operations that handle a task are the calls of
roles about it, the allocation of a workspace and the git commands (`Op.handlesTask`); a
cycle performs none of them before it has chosen a task, and from then on all of them are
about that task (`uses_runInWorkspace`). The chosen task is an executable task of the state
that the cycle loaded if the choice is (`Chosen`): a forced task is by `selectForcedTask`, the
default task manager's by `selectNextEntry_mem`, and that of another task manager only if it
answers so (`ChoiceExecutable`), as nothing checks its answer.
-/

namespace AiOrchestrator

/-! ### What a cycle does in a workspace -/

section Workspace

variable (rt : Runtime) {handle : TaskHandle}

theorem does_cleanupStaleWorktreesAndBranches :
    Does OpKind.plain rt.cleanupStaleWorktreesAndBranches := by
  have hgit : ∀ command, Does OpKind.plain (tryGit command) := fun command =>
    does_tryGit trivial command
  have hdelete : ∀ branchName, Does OpKind.plain (do
      let _ ← tryGit (.branchDelete rt.config.repoRoot branchName)) := fun branchName =>
    does_bind (hgit _) fun _ => does_pure _
  unfold Runtime.cleanupStaleWorktreesAndBranches
  refine does_bind (hgit _) fun _ => ?_
  refine does_bind (does_request trivial) fun now => ?_
  refine does_bind (hgit _) fun refs => ?_
  dsimp only
  generalize staleBranches _ _ _ = branchNames
  exact Act.uses_forEach hdelete

theorem does_allocateWorkspace (runId tenantId projectId : String) :
    Does OpKind.plain (rt.allocateWorkspace runId tenantId projectId) := by
  have hgit : ∀ command, Does OpKind.plain (request (.git command)) := fun _ => does_request trivial
  unfold Runtime.allocateWorkspace
  split
  · exact does_pure _
  · refine does_bind (does_ofExcept _) fun _ => does_bind (does_ofExcept _) fun _ => ?_
    refine does_bind (does_ofExcept _) fun _ => does_bind (does_request trivial) fun _ => ?_
    refine does_bind (does_request trivial) fun _ => does_catching ?_ fun _ => does_throw _
    refine does_bind (does_cleanupStaleWorktreesAndBranches rt) fun _ => ?_
    refine does_bind (does_bind (hgit _) fun _ => ?_) fun _ => ?_
    · exact does_ite (does_throw _) (does_pure _)
    refine does_bind (hgit _) fun _ => does_bind (hgit _) fun _ => ?_
    refine does_bind (does_bind (hgit _) fun _ => does_bind (hgit _) fun _ => does_pure _)
      fun _ => does_pure _

theorem does_rollbackWorkspace (workspace : ManagedWorkspace) :
    Does OpKind.plain (Runtime.rollbackWorkspace workspace) := by
  unfold Runtime.rollbackWorkspace
  split
  · exact does_pure _
  · exact does_bind (does_request trivial) fun _ => does_bind (does_request trivial) fun _ =>
      does_pure _

theorem does_cleanupWorkspace (workspace : ManagedWorkspace) :
    Does OpKind.plain (rt.cleanupWorkspace workspace) := by
  unfold Runtime.cleanupWorkspace
  split
  · exact does_pure _
  · refine Act.uses_finallyDo ?_ fun _ => ?_
    · exact does_bind (does_request trivial) fun _ => does_pure _
    · exact does_bind (does_tryGit trivial _) fun _ => does_pure _

/-- **The footprint of a workspace**: what is done in it is done for its task. -/
theorem uses_runInWorkspace (runId : String) :
    Act.Uses (RunOp handle) (rt.runInWorkspace handle runId) := by
  have hrecord : ∀ type title metadata, Act.Uses (RunOp handle)
      (Runtime.recordNew type title metadata) := fun _ _ _ =>
    uses_plain (does_recordNew trivial trivial trivial _ _ _)
  refine Act.uses_bind (uses_plainRequest trivial) fun _ => ?_
  refine Act.uses_bind (uses_plain (does_allocateWorkspace rt _ _ _)) fun workspace => ?_
  refine Act.uses_bind (hrecord _ _ _) fun _ => Act.uses_bind (hrecord _ _ _) fun _ => ?_
  refine Act.uses_finallyDo (Act.uses_catching ?_ fun _ => ?_) fun _ => ?_
  · exact uses_runTask rt
      { handle, runId, workspaceRoot := workspace.rootPath
        branchName := presentText workspace.branchName }
  · exact Act.uses_bind (Act.uses_ignoring (uses_plain (does_rollbackWorkspace workspace)))
      fun _ => Act.uses_throw _
  · exact Act.uses_ignoring (uses_plain (does_cleanupWorkspace rt workspace))

end Workspace

/-! ### Handling a task -/

/-- The task of a request. -/
def RoleInput.task? : RoleInput → Option BacklogTask
  | .prompt task _ _ _ | .execute task _ | .judge task _ => some task
  | .select _ => none

/-- The task that a role is called about. -/
def Op.task? : Op → Option BacklogTask
  | .executeRole _ req _ | .executeRoleStep _ req _ _ => req.input.task?
  | _ => none

/-- **The operations that handle a task**: workspaces, git commands, and the calls of roles
about it. -/
def Op.handlesTask (o : Op) : Prop := o.kind = .git ∨ o.task?.isSome

/-- A role that the operation calls is called about the given task. -/
def Op.About (task : BacklogTask) (o : Op) : Prop := ∀ t, o.task? = some t → t = task

theorem Op.task?_of_kind {o : Op} (hrole : o.kind ≠ .role) (hexecute : o.kind ≠ .execute) :
    o.task? = none := by
  cases o with
  | executeRole name req context =>
    cases hinput : req.input <;> simp [Op.kind, RoleInput.kind, hinput] at hrole hexecute
  | executeRoleStep name req context observations =>
    cases hinput : req.input <;> simp [Op.kind, RoleInput.kind, hinput] at hrole hexecute
  | _ => rfl

theorem Op.task?_of_quiet {o : Op} (h : o.kind.quiet) : o.task? = none := by
  apply Op.task?_of_kind
  · intro hkind
    rw [hkind] at h
    exact h
  · intro hkind
    rw [hkind] at h
    exact h

theorem about_of_call {name : AgentRoleName} {input : RoleInput} {task : BacklogTask}
    (hinput : ∀ t, input.task? = some t → t = task) {o : Op} (h : CallOp name input o) :
    o.About task := by
  intro t ht
  cases h with
  | quiet hquiet =>
    rw [Op.task?_of_quiet hquiet] at ht
    cases ht
  | execute hreq =>
    rw [Op.task?, hreq] at ht
    exact hinput t ht
  | step hreq =>
    rw [Op.task?, hreq] at ht
    exact hinput t ht

/-- The kinds of operations of a run that call no role. -/
def OpKind.callsNone : OpKind → Prop
  | .role | .execute | .load | .relabel | .lease => False
  | _ => True

/-- A run of a task calls roles about that task, and loads nothing. -/
theorem RunOp.call_or {handle : TaskHandle} {o : Op} (h : RunOp handle o) :
    (∃ name input, input.task? = some handle.task ∧ CallOp name input o) ∨ o.kind.callsNone := by
  cases h with
  | plain h =>
    refine Or.inr ?_
    cases hkind : o.kind <;> rw [hkind] at h <;> trivial
  | prompt stateSummary failures schema h => exact Or.inl ⟨_, _, rfl, h⟩
  | execute prompt h => exact Or.inl ⟨_, _, rfl, h⟩
  | review result h => exact Or.inl ⟨_, _, rfl, h⟩
  | test result h => exact Or.inl ⟨_, _, rfl, h⟩
  | failure h =>
    refine Or.inr ?_
    cases h with
    | record h => rcases h with h | h | h | h <;> rw [h] <;> trivial
    | count | noteFailure | flush | split | block | save => trivial
  | complete => exact Or.inr trivial
  | save events => exact Or.inr trivial

/-- A call acquires no lease. -/
theorem kind_ne_lease_of_call {name : AgentRoleName} {input : RoleInput} {o : Op}
    (h : CallOp name input o) : o.kind ≠ .lease := by
  intro hkind
  cases h with
  | quiet hquiet =>
    rw [hkind] at hquiet
    exact hquiet
  | @execute req context hreq =>
    cases hinput : req.input <;> simp [Op.kind, RoleInput.kind, hinput] at hkind
  | @step req context observations hreq =>
    cases hinput : req.input <;> simp [Op.kind, RoleInput.kind, hinput] at hkind

theorem RunOp.kind_ne_lease {handle : TaskHandle} {o : Op} (h : RunOp handle o) :
    o.kind ≠ .lease := by
  rcases h.call_or with ⟨name, input, -, hcall⟩ | hkind
  · exact kind_ne_lease_of_call hcall
  · intro hlease
    rw [hlease] at hkind
    exact hkind

/-- A run of a task calls roles about that task only. -/
theorem RunOp.about {handle : TaskHandle} {o : Op} (h : RunOp handle o) : o.About handle.task := by
  rcases h.call_or with ⟨name, input, htask, hcall⟩ | hkind
  · refine about_of_call (fun t ht => ?_) hcall
    rw [htask] at ht
    exact (Option.some.inj ht).symm
  · intro t ht
    rw [Op.task?_of_kind] at ht
    · cases ht
    · intro h
      rw [h] at hkind
      exact hkind
    · intro h
      rw [h] at hkind
      exact hkind

/-! ### The choice of a task -/

/-- A task of the state's backlog that is executable. -/
def ExecutableIn (state : ProjectState) (key : String) (task : BacklogTask) : Prop :=
  state.backlog.tasks.get? key = some task ∧
    isExecutableTask state.execution.completedTaskIds state.execution.blockedTaskIds task = true

/-- The state that a cycle loaded: its copy when it acquired its lease. -/
def loadedState (record : List RunEvent) : Option ProjectState :=
  record.findSome? fun e =>
    match e.op with
    | .acquireRunLease => some e.before.state
    | _ => none

/-- Every answer of the task manager is nothing or an executable task of the state that it was
given. -/
def ChoiceExecutable (record : List RunEvent) : Prop :=
  ∀ (state : ProjectState) (response : RoleResponse .taskManager),
    ⟨.taskManager, .select state, response⟩ ∈ responses record →
      ∀ key task, response.output = some (key, task) → ExecutableIn state key task

theorem ChoiceExecutable.tail {e : RunEvent} {record : List RunEvent}
    (h : ChoiceExecutable (e :: record)) : ChoiceExecutable record := by
  intro state response hmem
  refine h state response ?_
  cases hresponse : eventResponse e with
  | none => rwa [responses_cons_of_none hresponse]
  | some x =>
    rw [responses_cons_of_some hresponse]
    exact List.mem_cons_of_mem x hmem

theorem loadedState_cons {e : RunEvent} (h : e.op.kind ≠ .lease) (record : List RunEvent) :
    loadedState (e :: record) = loadedState record := by
  obtain ⟨o, x, w⟩ := e
  unfold loadedState
  rw [List.findSome?_cons]
  cases o with
  | acquireRunLease => exact absurd rfl h
  | _ => rfl

/-- **Chosen**: a task that is executable in the state the cycle loaded, and that all operations
so far that handle a task are about. -/
structure Chosen (record : List RunEvent) (state : ProjectState) (key : String)
    (task : BacklogTask) : Prop where
  loaded : loadedState record = some state
  executable : ExecutableIn state key task
  about : ∀ e ∈ record, e.op.About task

/-- The rules of a cycle that handles executable tasks only. -/
def selectionRules (host : Host) : Prog.Rules Op Op.Ans Observed where
  allowed o c := o.handlesTask → ChoiceExecutable c.2 →
    ∃ state key task, Chosen c.2 state key task ∧ o.About task
  effect := Prog.recorded (Op.effect host)

/-! ### Invariants of a cycle -/

section Invariants

variable {rt : Runtime}

/-- The state `s` is loaded, the copy differs from it in its revision only, and no role has
been called about a task. -/
structure Idle (s : ProjectState) (c : Observed) : Prop where
  loaded : loadedState c.2 = some s
  copy : ∃ revision, c.1.state = s.atRevision revision
  silent : ∀ e ∈ c.2, e.op.task? = none

/-- What is known of a choice: it is executable if the task manager's answers are. -/
def ChoiceIn (s : ProjectState) (choice : Option (String × BacklogTask)) (c : Observed) : Prop :=
  ChoiceExecutable c.2 → ∀ key task, choice = some (key, task) → ExecutableIn s key task

/-- A task is handled: it is the one of all role calls, and chosen well if the task manager
answers well. -/
structure Handling (s : ProjectState) (key : String) (task : BacklogTask) (c : Observed) :
    Prop where
  loaded : loadedState c.2 = some s
  executable : ChoiceExecutable c.2 → ExecutableIn s key task
  about : ∀ e ∈ c.2, e.op.About task

/-- The copy after an operation that assigns and loads nothing. -/
theorem copy_of_effect {host : Host} {o : Op} {w w' : World} {x : o.Ans} {s : ProjectState}
    (hload : o ≠ .load) (hflush : o ≠ .flush) (hupdate : ∀ u, o ≠ .update u)
    (hcopy : ∃ revision, w.state = s.atRevision revision) (he : Op.effect host o w x w') :
    ∃ revision, w'.state = s.atRevision revision := by
  obtain ⟨answer, store, heq⟩ := he
  obtain ⟨before, hbefore⟩ := hcopy
  obtain ⟨revision, hafter⟩ := copy_of_handle host answer
    { w with store := store } hload hflush hupdate
  rw [heq] at hafter
  refine ⟨revision, hafter.trans ?_⟩
  show w.state.atRevision revision = s.atRevision revision
  rw [hbefore]
  rfl

/-- The operations by which a task is chosen. -/
inductive ChoiceOp : Op → Prop
  | quiet {o : Op} (h : o.kind.quiet) : ChoiceOp o
  | ask {o : Op} (state : ProjectState) (h : CallOp .taskManager (.select state) o) : ChoiceOp o
  | read : ChoiceOp .selectionState
  | relabel : ChoiceOp .loadRevision

theorem ChoiceOp.not_assigning {o : Op} (h : ChoiceOp o) :
    o.kind ≠ .lease ∧ o.task? = none ∧ o.kind ≠ .git ∧ o ≠ .load ∧ o ≠ .flush ∧
      ∀ u, o ≠ .update u := by
  have hquiet : o.kind.quiet → o.kind ≠ .lease ∧ o.task? = none ∧ o.kind ≠ .git ∧ o ≠ .load ∧
      o ≠ .flush ∧ ∀ u, o ≠ .update u := by
    intro h
    refine ⟨?_, Op.task?_of_quiet h, ?_, ?_, ?_, ?_⟩
    · intro hkind
      rw [hkind] at h
      exact h
    · intro hkind
      rw [hkind] at h
      exact h
    · rintro rfl
      exact h
    · rintro rfl
      exact h
    · rintro u rfl
      cases u <;> exact h
  cases h with
  | quiet h => exact hquiet h
  | read => exact ⟨by decide, rfl, by decide, by simp, by simp, by simp⟩
  | relabel => exact ⟨by decide, rfl, by decide, by simp, by simp, by simp⟩
  | ask state h =>
    refine ⟨kind_ne_lease_of_call h, ?_⟩
    cases h with
    | quiet h => exact (hquiet h).2
    | @execute req context hreq =>
      refine ⟨?_, ?_, by simp, by simp, by simp⟩
      · simp only [Op.task?, hreq, RoleInput.task?]
      · simp [Op.kind, hreq, RoleInput.kind]
    | @step req context observations hreq =>
      refine ⟨?_, ?_, by simp, by simp, by simp⟩
      · simp only [Op.task?, hreq, RoleInput.task?]
      · simp [Op.kind, hreq, RoleInput.kind]

theorem ChoiceOp.allowed {o : Op} (h : ChoiceOp o) (c : Observed) :
    (selectionRules rt.host).allowed o c := by
  obtain ⟨-, htask, hgit, -⟩ := h.not_assigning
  intro hhandles
  rcases hhandles with hkind | hsome
  · exact absurd hkind hgit
  · rw [htask] at hsome
    cases hsome

theorem ChoiceIn.cons {s : ProjectState} {choice : Option (String × BacklogTask)} {c c' : Observed}
    {e : RunEvent} (h : ChoiceIn s choice c) (hrecord : c'.2 = e :: c.2) : ChoiceIn s choice c' := by
  intro hchoice
  rw [hrecord] at hchoice
  exact h hchoice.tail

/-- Choosing keeps the cycle idle. -/
theorem stable_idle (s : ProjectState) : Stable (selectionRules rt.host) ChoiceOp (Idle s) := by
  intro o c ho hc
  obtain ⟨hlease, htask, -, hload, hflush, hupdate⟩ := ho.not_assigning
  refine ⟨ho.allowed c, fun x c' he => ?_⟩
  refine ⟨?_, copy_of_effect hload hflush hupdate hc.copy he.1, ?_⟩
  · rw [he.2, loadedState_cons hlease]
    exact hc.loaded
  · rw [he.2]
    intro e hmem
    rcases List.mem_cons.mp hmem with rfl | hmem
    · exact htask
    · exact hc.silent e hmem

theorem stable_choice (s : ProjectState) (choice : Option (String × BacklogTask)) :
    Stable (selectionRules rt.host) ChoiceOp (fun c => Idle s c ∧ ChoiceIn s choice c) := by
  intro o c ho hc
  have hidle := @stable_idle rt s o c ho hc.1
  exact ⟨hidle.1, fun x c' he => ⟨hidle.2 x c' he, hc.2.cons he.2⟩⟩

/-- **Handling** the chosen task goes on as long as a run of it does. -/
theorem stable_handling (s : ProjectState) (handle : TaskHandle) :
    Stable (selectionRules rt.host) (RunOp handle) (Handling s handle.key handle.task) := by
  intro o c ho hc
  refine ⟨fun _ hchoice => ⟨s, handle.key, handle.task, ⟨hc.loaded, hc.executable hchoice, hc.about⟩,
    ho.about⟩, fun x c' he => ?_⟩
  refine ⟨?_, fun hchoice => ?_, ?_⟩
  · rw [he.2, loadedState_cons ho.kind_ne_lease]
    exact hc.loaded
  · rw [he.2] at hchoice
    exact hc.executable hchoice.tail
  · rw [he.2]
    intro e hmem
    rcases List.mem_cons.mp hmem with rfl | hmem
    · exact ho.about
    · exact hc.about e hmem

theorem executableIn_atRevision {s : ProjectState} {revision : Nat} {key : String}
    {task : BacklogTask} : ExecutableIn (s.atRevision revision) key task ↔ ExecutableIn s key task :=
  Iff.rfl

/-- Reading the copy gives the loaded state at some revision. -/
theorem readState_spec (s : ProjectState) :
    Act.Triple (selectionRules rt.host) (Idle s) (request .readState)
      (fun state c => Idle s c ∧ ∃ revision, state = s.atRevision revision) (fun _ => Idle s) := by
  have hop : ChoiceOp .readState := .quiet trivial
  refine triple_request (fun c hc => (stable_idle s _ c hop hc).1) fun c x c' hc he => ?_
  have hidle := (stable_idle s _ c hop hc).2 x c' he
  cases x with
  | error error => exact hidle
  | ok state =>
    refine ⟨hidle, ?_⟩
    obtain ⟨⟨answer, store, heq⟩, -⟩ := he
    have hstate : state = c.1.state := (Except.ok.inj (congrArg Prod.fst heq)).symm
    rw [hstate]
    exact hc.copy

/-- So does what the task manager is handed. -/
theorem selectionState_spec (s : ProjectState) :
    Act.Triple (selectionRules rt.host) (Idle s) (request .selectionState)
      (fun state c => Idle s c ∧ ∃ revision, state = s.atRevision revision) (fun _ => Idle s) := by
  have hop : ChoiceOp .selectionState := .read
  refine triple_request (fun c hc => (stable_idle s _ c hop hc).1) fun c x c' hc he => ?_
  have hidle := (stable_idle s _ c hop hc).2 x c' he
  cases x with
  | error error => exact hidle
  | ok state =>
    refine ⟨hidle, ?_⟩
    obtain ⟨⟨answer, store, heq⟩, -⟩ := he
    have hstate : state = c.1.state := (Except.ok.inj (congrArg Prod.fst heq)).symm
    rw [hstate]
    exact hc.copy

/-- **The task manager's choice.** -/
theorem taskManager_spec (s : ProjectState) {state : ProjectState} {req : RoleRequest}
    (hreq : req.input = .select state) (hstate : ∃ revision, state = s.atRevision revision)
    (context : RoleExecutionContext) :
    Act.Triple (selectionRules rt.host) (Idle s)
      (rt.executeRole (rt.taskManager req context) req context)
      (fun response c => Idle s c ∧ ChoiceIn s response.output c) (fun _ => Idle s) := by
  unfold Runtime.taskManager
  split
  · -- Another task manager: its answer is in the record.
    have hcall : Stable (selectionRules rt.host) (CallOp .taskManager req.input) (Idle s) :=
      (stable_idle s).mono fun _ h => .ask state (hreq ▸ h)
    refine (answered_spec rfl hcall rt).imp (fun _ h => h) ?_ (fun _ _ h => h)
    intro response c h
    refine ⟨h.1, fun hchoice key task hout => ?_⟩
    obtain ⟨revision, rfl⟩ := hstate
    have hanswered : Answered .taskManager (.select (s.atRevision revision)) response c.2 :=
      hreq ▸ h.2
    exact hchoice (s.atRevision revision) response
      (List.mem_of_mem_head? (Option.mem_def.mpr hanswered)) key task hout
  · -- The default one selects from the copy.
    have hquiet : Stable (selectionRules rt.host) (fun o => o.kind.quiet) (Idle s) :=
      (stable_idle s).mono fun _ h => .quiet h
    refine executeRole_spec rt hquiet ?_
      (fun response => (stable_choice s response.output).mono fun _ h => .quiet h)
      (fun _ _ h => h.1) fun _ => Act.uses_pure _
    refine Act.Triple.bind (selectionState_spec s) fun copy => Act.Triple.pure ?_
    rintro c ⟨hidle, revision, rfl⟩
    refine ⟨hidle, fun _ key task hentry => ?_⟩
    have hmem := selectNextEntry_mem hentry
    exact executableIn_atRevision.mp (mem_executableEntries.mp hmem)

/-- `selectNextTask` of the orchestrator. -/
theorem selectTask_spec (s : ProjectState) (runId : String) :
    Act.Triple (selectionRules rt.host) (Idle s) (rt.selectTask runId)
      (fun choice c => Idle s c ∧ ChoiceIn s (choice.map fun handle => (handle.key, handle.task)) c)
      (fun _ _ => True) := by
  refine Act.Triple.bind ((readState_spec s).imp (fun _ h => h) (fun _ _ h => h)
    fun _ _ _ => trivial) fun state => ?_
  intro c hc
  refine Act.Triple.bind ((taskManager_spec s rfl hc.2 _).imp (fun _ h => h) (fun _ _ h => h)
    fun _ _ _ => trivial) (fun response => ?_) c hc.1
  have hrelabel := (@stable_choice rt s response.output).keeps_request .relabel
  refine Act.Triple.bind (hrelabel.imp (fun _ h => h) (fun _ _ h => h) fun _ _ _ => trivial)
    fun _ => Act.Triple.pure fun c' hc' => ⟨hc'.1, ?_⟩
  have hmap : ∀ entry : Option (String × BacklogTask),
      ((entry.map fun entry => ({ task := entry.2, key := entry.1 } : TaskHandle)).map
        fun handle => (handle.key, handle.task)) = entry := by
    intro entry
    cases entry <;> rfl
  exact (hmap response.output).symm ▸ hc'.2

/-- What is chosen is handled in a workspace. -/
theorem runInWorkspace_spec (s : ProjectState) (handle : TaskHandle) (runId : String) :
    Act.Triple (selectionRules rt.host) (Handling s handle.key handle.task)
      (rt.runInWorkspace handle runId) (fun _ _ => True) (fun _ _ => True) :=
  ((stable_handling s handle).keeps (uses_runInWorkspace rt runId)).imp (fun _ h => h)
    (fun _ _ _ => trivial) fun _ _ _ => trivial

theorem handling_of_choice {s : ProjectState} {handle : TaskHandle} {c : Observed}
    (h : Idle s c)
    (hchoice : ChoiceIn s (some (handle.key, handle.task)) c) :
    Handling s handle.key handle.task c where
  loaded := h.loaded
  executable := fun hexecutable => hchoice hexecutable _ _ rfl
  about := fun e he t ht => by
    rw [h.silent e he] at ht
    cases ht

/-- A forced task is looked up in the copy. -/
theorem choiceIn_selectForcedTask {s : ProjectState} {revision : Nat} (taskId : String)
    (c : Observed) :
    ChoiceIn s ((Runtime.selectForcedTask (s.atRevision revision) taskId).map
      fun handle => (handle.key, handle.task)) c := by
  intro _ key task hchoice
  obtain ⟨handle, hforced, heq⟩ := Option.map_eq_some_iff.mp hchoice
  cases heq
  unfold Runtime.selectForcedTask at hforced
  split at hforced
  · cases hforced
  · next found hfound =>
    split_ifs at hforced with hexecutable
    cases hforced
    exact ⟨hfound, hexecutable⟩

/-- The choice of a task, forced or not. -/
theorem choose_spec (s : ProjectState) (state : ProjectState) (runId : String)
    (forced : Option String) :
    Act.Triple (selectionRules rt.host)
      (fun c => Idle s c ∧ ∃ revision, state = s.atRevision revision)
      (match forced with
      | some taskId => pure (Runtime.selectForcedTask state taskId)
      | none => rt.selectTask runId)
      (fun choice c => Idle s c ∧
        ChoiceIn s (choice.map fun handle => (handle.key, handle.task)) c)
      (fun _ _ => True) := by
  cases forced with
  | some taskId =>
    refine Act.Triple.pure ?_
    rintro c ⟨hidle, revision, rfl⟩
    exact ⟨hidle, choiceIn_selectForcedTask taskId c⟩
  | none => exact (selectTask_spec s runId).imp (fun _ h => h.1) (fun _ _ h => h) fun _ _ h => h

/-- What a cycle does with its choice. -/
theorem handleChoice_spec (s : ProjectState) (runId stopReason : String)
    (choice : Option TaskHandle) :
    Act.Triple (selectionRules rt.host)
      (fun c => Idle s c ∧
        ChoiceIn s (choice.map fun handle => (handle.key, handle.task)) c)
      (match choice with
      | none => pure { runId, status := .idle, stopReason := some stopReason }
      | some handle => rt.runInWorkspace handle runId)
      (fun _ _ => True) (fun _ _ => True) := by
  cases choice with
  | none => exact Act.Triple.pure fun _ _ => trivial
  | some handle =>
    exact (runInWorkspace_spec s handle runId).imp
      (fun c hc => handling_of_choice hc.1 hc.2) (fun _ _ h => h) fun _ _ h => h

/-- **The cycle under its lease.** -/
theorem runUnderLease_spec (s : ProjectState) (runId : String)
    (options : Runtime.RunCycleOptions) :
    Act.Triple (selectionRules rt.host) (Idle s) (rt.runUnderLease runId options)
      (fun _ _ => True) (fun _ _ => True) := by
  have hidle := @stable_idle rt s
  have hquiet : ∀ {o : Op}, o.kind.quiet → Act.Triple (selectionRules rt.host) (Idle s) (request o)
      (fun _ => Idle s) (fun _ _ => True) := fun h =>
    (hidle.keeps_request (.quiet h)).imp (fun _ h => h) (fun _ _ h => h) fun _ _ _ => trivial
  have hread := (@readState_spec rt s).imp (fun _ h => h) (fun _ _ h => h)
    fun _ (_ : Observed) _ => trivial
  unfold Runtime.runUnderLease
  refine Act.Triple.bind (hquiet (by exact trivial)) fun _ => ?_
  refine Act.Triple.bind hread fun state => ?_
  generalize assertProjectState state = valid
  have hassert := (Act.keeps_ofExcept (R := selectionRules rt.host)
    (I := fun c => Idle s c ∧ ∃ revision, state = s.atRevision revision)
    valid).imp (fun _ h => h) (fun _ _ h => h) fun _ (_ : Observed) _ => trivial
  refine Act.Triple.bind hassert fun _ => ?_
  generalize shouldStopRun state rt.config.workflow = stop
  cases stop with
  | some reason =>
    have hid : Act.Triple (selectionRules rt.host)
        (fun c => Idle s c ∧ ∃ revision, state = s.atRevision revision) (request .randomUUID)
        (fun _ => Idle s) (fun _ _ => True) := fun c hc => hquiet (by exact trivial) c hc.1
    exact Act.Triple.bind hid fun _ => Act.Triple.pure fun _ _ => trivial
  | none =>
    dsimp only
    generalize presentText options.forcedTaskId = forced
    exact Act.Triple.bind (choose_spec s state runId forced) fun choice =>
      handleChoice_spec s runId _ choice

/-- Before the lease no role has been called. -/
def Unleased (c : Observed) : Prop := ∀ e ∈ c.2, e.op.task? = none

theorem unleased_request {o : Op} (htask : o.task? = none) (hgit : o.kind ≠ .git) :
    Act.Triple (selectionRules rt.host) Unleased (request o) (fun _ => Unleased)
      (fun _ _ => True) := by
  refine triple_request (fun c hc hhandles => ?_) fun c x c' hc he => ?_
  · rcases hhandles with hkind | hsome
    · exact absurd hkind hgit
    · rw [htask] at hsome
      cases hsome
  · have hnext : Unleased c' := by
      intro e hmem
      rw [he.2] at hmem
      rcases List.mem_cons.mp hmem with rfl | hmem
      · exact htask
      · exact hc e hmem
    cases x with
    | error error => trivial
    | ok result => exact hnext

/-- **A cycle** handles an executable task of the state it loaded, or none. -/
theorem runCycle_spec (options : Runtime.RunCycleOptions) :
    Act.Triple (selectionRules rt.host) Unleased (rt.runCycle options) (fun _ _ => True)
      (fun _ _ => True) := by
  refine Act.Triple.bind (unleased_request rfl (by decide)) fun _ => ?_
  refine Act.Triple.bind (unleased_request rfl (by decide)) fun runId => ?_
  refine Act.Triple.bind (unleased_request rfl (by decide)) fun _ => ?_
  refine Act.Triple.bind (Q := fun _ c => ∃ s, Idle s c) ?_ fun acquired => ?_
  · refine triple_request (fun c hc hhandles => ?_) fun c x c' hc he => ?_
    · rcases hhandles with hkind | hsome
      · cases hkind
      · cases hsome
    · have hidle : Idle c.1.state c' := by
        obtain ⟨⟨answer, store, heq⟩, hrecord⟩ := he
        refine ⟨by rw [hrecord]; rfl, ?_, ?_⟩
        · obtain ⟨revision, hcopy⟩ := copy_of_handle rt.host answer
            (o := .acquireRunLease) { c.1 with store := store } (by simp) (by simp) (by simp)
          rw [heq] at hcopy
          exact ⟨revision, hcopy⟩
        · intro e hmem
          rw [hrecord] at hmem
          rcases List.mem_cons.mp hmem with rfl | hmem
          · rfl
          · exact hc e hmem
      cases x with
      | error error => trivial
      | ok result => exact ⟨_, hidle⟩
  split
  · exact Act.Triple.pure fun _ _ => trivial
  · have hrelease : Act.Triple (selectionRules rt.host) (fun _ => True)
        (Act.ignoring (request .release)) (fun _ _ => True) (fun _ _ => True) := by
      refine Act.Triple.ignoring ?_
      refine triple_request (fun c hc hhandles => ?_) fun c x c' hc he => ?_
      · rcases hhandles with hkind | hsome
        · cases hkind
        · cases hsome
      · cases x <;> trivial
    refine Act.Triple.finallyDo (Q := fun _ _ => True) (E := fun _ _ => True) ?_
      (fun _ => hrelease) fun _ => hrelease
    intro c hc
    obtain ⟨s, hidle⟩ := hc
    exact runUnderLease_spec s runId options c hidle

end Invariants

end AiOrchestrator
