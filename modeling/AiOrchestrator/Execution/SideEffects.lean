import AiOrchestrator.Execution.Observed
import AiOrchestrator.Execution.Orchestrator

/-!
# Side effects

The git lifecycle has three executors: of the commit, of the push and of the draft pull request.
They are called behind reservations in the dedup registry of the run's copy, and nothing else in a
cycle calls them or touches a registry. This file says so: every part of a cycle outside the
lifecycle's side effects performs ordinary operations only (`Op.ordinary`), and so does every part
of the lifecycle between them.
-/

namespace AiOrchestrator

/-- The command of an executor. -/
def GitCommand.IsExecutor : GitCommand → Prop
  | .add _ | .commit _ _ | .push _ _ | .prCreate _ _ _ _ => True
  | _ => False

/-- The commit, push or pull-request executor is at work. -/
def Op.IsExecutor : Op → Prop
  | .git command => command.IsExecutor
  | _ => False

/-- The update works on the dedup registry. -/
def Update.Registers : Update → Prop
  | .reserve _ _ _ _ | .finalize _ _ _ _ => True
  | _ => False

/-- **Ordinary operations**: neither an executor nor an update of the dedup registry. -/
def Op.ordinary : Op → Prop
  | .git command => ¬ command.IsExecutor
  | .update u => ¬ u.Registers
  | _ => True

/-- The program performs ordinary operations only. -/
abbrev Ordinary {α : Type} (m : Action α) : Prop := Act.Uses Op.ordinary m

theorem Op.ordinary_of_kind {o : Op} (hgit : o.kind ≠ .git) (hassign : o.kind ≠ .assign) :
    o.ordinary := by
  cases o with
  | git command => exact absurd rfl hgit
  | update u =>
    intro hu
    cases u with
    | reserve key leaseOwner nowIso ttlMs => exact hassign rfl
    | finalize key nowIso status policyDecisionId => exact hassign rfl
    | _ => exact hu
  | _ => trivial

/-- The kinds of operations that are ordinary throughout. -/
def OpKind.ordinary (kind : OpKind) : Prop := kind ≠ .git ∧ kind ≠ .assign

instance (kind : OpKind) : Decidable kind.ordinary := by
  unfold OpKind.ordinary
  infer_instance

section Ordinary

variable {α : Type}

theorem ordinary_of_does {m : Action α} (hm : Does OpKind.ordinary m) : Ordinary m :=
  uses_of_does hm fun _ h => Op.ordinary_of_kind h.1 h.2

theorem ordinary_request {o : Op} (h : o.ordinary) : Ordinary (request o) := uses_request h

/-! ### Records -/

theorem ordinary_guardedWrite (call : StoreCall) : Ordinary (guardedWrite call) :=
  Act.uses_bind (ordinary_request trivial) fun _ => ordinary_request trivial

theorem ordinary_newArtifact (type : ArtifactType) (title : String)
    (metadata : List (String × String)) : Ordinary (newArtifact type title metadata) :=
  ordinary_of_does (does_newArtifact (by decide) type title metadata)

theorem ordinary_newEvent (eventType : DomainEventType) (payload : List (String × Json Nat))
    (runId : String) : Ordinary (newEvent eventType payload runId) :=
  ordinary_of_does (does_newEvent (by decide) eventType payload runId)

theorem ordinary_recordEvent (eventType : DomainEventType) (payload : List (String × Json Nat))
    (runId : String) : Ordinary (recordEvent eventType payload runId) :=
  ordinary_of_does (does_recordEvent (by decide) (by decide) eventType payload runId)

theorem ordinary_recordNew (type : ArtifactType) (title : String)
    (metadata : List (String × String)) : Ordinary (Runtime.recordNew type title metadata) := by
  refine Act.uses_bind (ordinary_newArtifact type title metadata) fun artifact => ?_
  refine Act.uses_bind (ordinary_guardedWrite _) fun _ => ?_
  exact ordinary_request (o := .update (.pushArtifact artifact)) id

theorem ordinary_persistAndRequire (input : PersistPolicyDecisionInput) :
    Ordinary (PolicyDecisionRecorder.persistAndRequire input) := by
  refine Act.uses_bind (ordinary_request trivial) fun _ => ?_
  refine Act.uses_bind (ordinary_request trivial) fun _ => ?_
  refine Act.uses_bind (ordinary_request trivial) fun _ => ?_
  refine Act.uses_bind (ordinary_guardedWrite _) fun _ => ?_
  refine Act.uses_bind (ordinary_request (o := .update (.pushPolicyDecision _)) id) fun _ => ?_
  exact Act.uses_bind (ordinary_request trivial) fun _ => Act.uses_ofExcept _

/-! ### Role calls -/

theorem ordinary_quiet {o : Op} (h : o.kind.quiet) : o.ordinary := by
  refine Op.ordinary_of_kind (fun hkind => ?_) fun hkind => ?_
  · rw [hkind] at h
    exact h
  · rw [hkind] at h
    exact h

/-- A call of a role is ordinary. -/
theorem CallOp.ordinary {name : AgentRoleName} {input : RoleInput} {o : Op}
    (h : CallOp name input o) : o.ordinary := by
  cases h with
  | quiet h => exact ordinary_quiet h
  | execute h => trivial
  | step h => trivial

variable (rt : Runtime) (run : Runtime.TaskRun)

theorem ordinary_callRole (name : AgentRoleName) (objective : String) (input : RoleInput)
    (acceptanceCriteria : List String) :
    Ordinary (rt.callRole run name objective input acceptanceCriteria) :=
  (uses_callRole rt run name objective input acceptanceCriteria).mono fun _ h => h.ordinary

theorem ordinary_selectTask (runId : String) : Ordinary (rt.selectTask runId) := by
  refine Act.uses_bind (ordinary_request trivial) fun state => ?_
  refine Act.uses_bind ?_ fun _ => Act.uses_bind (ordinary_request trivial) fun _ =>
    Act.uses_pure _
  unfold Runtime.taskManager
  split
  · refine uses_executeRole rt (fun _ h => ordinary_quiet h) ?_ _ _
    have huses := @roleUses_registeredRole rt .taskManager
    exact
      { execute := (huses _ _).execute.mono fun _ h => h.ordinary
        executeStep := fun step hstep observations =>
          ((huses _ _).executeStep step hstep observations).mono fun _ h => h.ordinary
        validate := fun response => ((huses _ _).validate response).mono fun _ h => h.ordinary }
  · exact uses_executeRole rt (fun _ h => ordinary_quiet h)
      (roleUses_taskManagerRole trivial rt.host) _ _

/-! ### Git commands -/

theorem ordinary_tryGit {command : GitCommand} (h : ¬ command.IsExecutor) :
    Ordinary (tryGit command) :=
  Act.uses_catching (Act.uses_bind (ordinary_request h) fun _ => Act.uses_pure _) fun _ =>
    Act.uses_pure _

theorem ordinary_workspaceHasGitChanges (root : String) :
    Ordinary (workspaceHasGitChanges root) := by
  refine Act.uses_bind (ordinary_tryGit id) fun stdout => ?_
  cases stdout <;> exact Act.uses_pure _

theorem ordinary_detectRiskyActionsFromCommit (rt : Runtime) (root commitSha : String) :
    Ordinary (rt.detectRiskyActionsFromCommit root commitSha) := by
  refine Act.uses_bind (Act.uses_bind (ordinary_tryGit id) fun stdout => ?_) fun lines =>
    Act.uses_pure _
  cases stdout <;> exact Act.uses_pure _

theorem ordinary_lifecycleBranch (input : GitLifecycleInput) :
    Ordinary (Runtime.lifecycleBranch input) := by
  unfold Runtime.lifecycleBranch
  split
  · exact Act.uses_pure _
  · refine Act.uses_bind (Act.uses_bind (ordinary_tryGit id) fun stdout => ?_) fun _ =>
      Act.uses_pure _
    cases stdout <;> exact Act.uses_pure _

theorem ordinary_listWorkspaceChangedFiles (root : String) :
    Ordinary (Runtime.listWorkspaceChangedFiles root) := by
  refine Act.uses_bind (ordinary_tryGit id) fun stdout => ?_
  cases stdout <;> exact Act.uses_pure _

/-! ### Gates of the lifecycle -/

theorem ordinary_evaluateApprovalGate (runId taskId : String) (action : ApprovalRequestedAction)
    (reason : String) (metadata : List (String × String)) :
    Ordinary (evaluateApprovalGate runId taskId action reason metadata) := by
  refine Act.uses_bind (ordinary_request trivial) fun state => ?_
  split
  · exact Act.uses_pure _
  · refine Act.uses_bind (ordinary_request trivial) fun id => ?_
    refine Act.uses_bind (ordinary_request trivial) fun createdAt => ?_
    refine Act.uses_bind (ordinary_request (o := .update (.pushApproval _)) fun h => h) fun _ => ?_
    exact Act.uses_bind (ordinary_recordEvent _ _ _) fun _ => Act.uses_pure _

theorem ordinary_evaluateRiskGates (input : GitLifecycleInput) (branchName commitSha : String)
    (actions : List ApprovalRequestedAction) :
    Ordinary (rt.evaluateRiskGates input branchName commitSha actions) := by
  induction actions with
  | nil => exact Act.uses_pure _
  | cons action actions ih =>
    unfold Runtime.evaluateRiskGates
    split
    · exact Act.uses_bind (ordinary_evaluateApprovalGate _ _ _ _ _) fun _ =>
        Act.uses_bind ih fun _ => Act.uses_pure _
    · exact ih

theorem ordinary_evaluatePushGate (input : GitLifecycleInput) (branchName commitSha : String) :
    Ordinary (rt.evaluatePushGate input branchName commitSha) := by
  unfold Runtime.evaluatePushGate
  split
  · exact ordinary_evaluateApprovalGate _ _ _ _ _
  · exact Act.uses_pure _

/-! ### Stages -/

theorem ordinary_optimizePrompt : Ordinary (rt.optimizePrompt run) := by
  refine Act.uses_bind (ordinary_request trivial) fun _ => ?_
  refine Act.uses_bind (ordinary_callRole rt run _ _ _ _) fun _ => ?_
  refine Act.uses_bind (ordinary_recordEvent _ _ _) fun _ => ?_
  exact Act.uses_bind (ordinary_recordNew _ _ _) fun _ => Act.uses_pure _

theorem ordinary_executeTask (prompt : OptimizedPrompt) :
    Ordinary (rt.executeTask run prompt) := by
  refine Act.uses_bind (ordinary_callRole rt run _ _ _ _) fun _ => ?_
  refine Act.uses_bind (ordinary_request trivial) fun _ => ?_
  refine Act.uses_bind (Act.uses_bind (ordinary_listWorkspaceChangedFiles _) fun _ =>
    Act.uses_ofExcept _) fun _ => ?_
  exact Act.uses_bind (ordinary_recordEvent _ _ _) fun _ => Act.uses_pure _

theorem ordinary_reviewTask (result : Json Nat) : Ordinary (rt.reviewTask run result) := by
  refine Act.uses_bind (ordinary_callRole rt run _ _ _ _) fun _ => ?_
  dsimp only
  split
  · exact Act.uses_bind (ordinary_recordEvent _ _ _) fun _ => Act.uses_pure _
  · exact Act.uses_bind (ordinary_recordEvent _ _ _) fun _ => Act.uses_pure _

theorem ordinary_persistQualityStageArtifacts (runId taskId : String)
    (qualityStages : Option (List QualityStageResult)) :
    Ordinary (Runtime.persistQualityStageArtifacts runId taskId qualityStages) :=
  Act.uses_forEach fun _ => ordinary_recordNew _ _ _

theorem ordinary_testTask (result : Json Nat) : Ordinary (rt.testTask run result) := by
  have hhealth : ∀ stages passed, Ordinary (request (.update (.repoHealth stages passed))) :=
    fun _ _ => ordinary_request fun h => h
  refine Act.uses_bind (ordinary_callRole rt run _ _ _ _) fun _ => ?_
  dsimp only
  split
  · refine Act.uses_bind (hhealth _ _) fun _ => ?_
    refine Act.uses_bind (ordinary_persistQualityStageArtifacts _ _ _) fun _ => ?_
    exact Act.uses_bind (ordinary_recordEvent _ _ _) fun _ => Act.uses_pure _
  · refine Act.uses_bind (hhealth _ _) fun _ => ?_
    refine Act.uses_bind (Act.uses_ofExcept _) fun _ => ?_
    refine Act.uses_bind (ordinary_persistQualityStageArtifacts _ _ _) fun _ => ?_
    exact Act.uses_bind (ordinary_recordEvent _ _ _) fun _ => Act.uses_pure _

theorem ordinary_handleFailure (handle : TaskHandle) (role : RuntimeFailureRole)
    (reason runId : String) : Ordinary (rt.handleFailure handle role reason runId) := by
  have hupdate : ∀ {u : Update}, ¬ u.Registers → Ordinary (request (.update u)) := fun h =>
    ordinary_request h
  have hmade : ∀ {β : Type} {o o' : Op} {f : o.Result → o'.Result → Action β}, o.ordinary →
      o'.ordinary → (∀ x y, Ordinary (f x y)) → Ordinary (do f (← request o) (← request o')) :=
    fun ho ho' hf => Act.uses_bind (ordinary_request ho) fun x =>
      Act.uses_bind (ordinary_request ho') fun y => hf x y
  refine hmade trivial trivial fun state now => ?_
  refine Act.uses_bind (ordinary_guardedWrite _) fun counted => ?_
  refine Act.uses_bind (hupdate id) fun _ => Act.uses_bind (ordinary_request trivial) fun _ => ?_
  split
  · refine Act.uses_bind (hupdate id) fun _ => ?_
    refine hmade trivial trivial fun _ _ => hmade trivial trivial fun _ _ => ?_
    refine Act.uses_bind (hupdate id) fun _ => Act.uses_bind (hupdate id) fun _ => ?_
    refine Act.uses_bind (ordinary_newEvent _ _ _) fun _ => ?_
    exact Act.uses_bind (ordinary_guardedWrite _) fun _ => Act.uses_pure _
  · refine Act.uses_bind (hupdate id) fun _ => hmade trivial trivial fun _ _ => ?_
    refine Act.uses_bind (hupdate id) fun _ => ?_
    refine Act.uses_bind (ordinary_guardedWrite _) fun _ => ?_
    refine Act.uses_bind (ordinary_newEvent _ _ _) fun _ => ?_
    exact Act.uses_bind (ordinary_guardedWrite _) fun _ => Act.uses_pure _
  · exact Act.uses_bind (ordinary_guardedWrite _) fun _ => Act.uses_pure _

theorem ordinary_recordRunCostSummary (outcome : RunOutcome) :
    Ordinary (Runtime.recordRunCostSummary run outcome) := by
  refine Act.uses_bind (ordinary_request trivial) fun _ => ?_
  refine Act.uses_bind (ordinary_newArtifact _ _ _) fun artifact => ?_
  refine Act.uses_bind (Act.uses_ignoring (ordinary_guardedWrite _)) fun _ => ?_
  exact ordinary_request (o := .update (.pushArtifact artifact)) id

/-! ### Workspaces -/

theorem ordinary_git {command : GitCommand} (h : ¬ command.IsExecutor) :
    Ordinary (request (.git command)) :=
  ordinary_request h

theorem ordinary_cleanupStaleWorktreesAndBranches :
    Ordinary rt.cleanupStaleWorktreesAndBranches := by
  have hdelete : ∀ branchName, Ordinary (do
      let _ ← tryGit (.branchDelete rt.config.repoRoot branchName)) := fun branchName =>
    Act.uses_bind (ordinary_tryGit id) fun _ => Act.uses_pure _
  unfold Runtime.cleanupStaleWorktreesAndBranches
  refine Act.uses_bind (ordinary_tryGit id) fun _ => ?_
  refine Act.uses_bind (ordinary_request trivial) fun now => ?_
  refine Act.uses_bind (ordinary_tryGit id) fun refs => ?_
  dsimp only
  -- which branches are old does not matter here
  generalize staleBranches _ _ _ = branchNames
  exact Act.uses_forEach hdelete

theorem ordinary_allocateWorkspace (runId tenantId projectId : String) :
    Ordinary (rt.allocateWorkspace runId tenantId projectId) := by
  have hbranch : Ordinary rt.currentBranch := by
    refine Act.uses_bind (ordinary_git id) fun stdout => ?_
    dsimp only
    split
    · exact Act.uses_throw _
    · exact Act.uses_pure _
  have hdiff : ∀ root, Ordinary (Runtime.captureWorkspaceDiff root) := fun root =>
    Act.uses_bind (ordinary_git id) fun _ => Act.uses_bind (ordinary_git id) fun _ =>
      Act.uses_pure _
  have hadd : ∀ workspaceRoot branchName, Ordinary (rt.addWorktree workspaceRoot branchName) := by
    intro workspaceRoot branchName
    refine Act.uses_bind (ordinary_cleanupStaleWorktreesAndBranches rt) fun _ =>
      Act.uses_bind hbranch fun _ => ?_
    refine Act.uses_bind (ordinary_git id) fun _ => Act.uses_bind (ordinary_git id) fun _ => ?_
    exact Act.uses_bind (hdiff _) fun _ => Act.uses_pure _
  unfold Runtime.allocateWorkspace
  split
  · exact Act.uses_pure _
  · refine Act.uses_bind (Act.uses_ofExcept _) fun _ => ?_
    refine Act.uses_bind (Act.uses_ofExcept _) fun _ => ?_
    refine Act.uses_bind (Act.uses_ofExcept _) fun _ => ?_
    refine Act.uses_bind (ordinary_request trivial) fun _ => ?_
    refine Act.uses_bind (ordinary_request trivial) fun _ => ?_
    exact Act.uses_catching (hadd _ _) fun _ => Act.uses_throw _

theorem ordinary_rollbackWorkspace (workspace : ManagedWorkspace) :
    Ordinary (Runtime.rollbackWorkspace workspace) := by
  unfold Runtime.rollbackWorkspace
  split
  · exact Act.uses_pure _
  · exact Act.uses_bind (ordinary_git id) fun _ => Act.uses_bind (ordinary_git id) fun _ =>
      Act.uses_pure _

theorem ordinary_cleanupWorkspace (workspace : ManagedWorkspace) :
    Ordinary (rt.cleanupWorkspace workspace) := by
  unfold Runtime.cleanupWorkspace
  split
  · exact Act.uses_pure _
  · refine Act.uses_finallyDo ?_ fun _ => ?_
    · exact Act.uses_bind (ordinary_git id) fun _ => Act.uses_pure _
    · exact Act.uses_bind (ordinary_tryGit id) fun _ => Act.uses_pure _

end Ordinary

end AiOrchestrator
