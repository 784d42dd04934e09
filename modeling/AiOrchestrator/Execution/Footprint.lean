import AiOrchestrator.Execution.TaskRunner

/-!
# Footprints

Which kinds of operations the parts of a run perform. Most invariants of a run are kept by
every operation of a kind, whatever the program does with the answer; for these a program
counts only through the kinds it may perform (`Does`), and the lemmas of this file walk
through each program once for all of them.
-/

namespace AiOrchestrator

/-- **Kinds of operations**, by what they can change. -/
inductive OpKind
  /-- Nothing changes. -/
  | observe
  /-- The shared objects. -/
  | share
  /-- The totals are compared with the budgets. -/
  | budget
  /-- The store's events and its run-step log. -/
  | step
  /-- A role other than the executing one is called. -/
  | role
  /-- The executing role is called. -/
  | execute
  | tool
  /-- Artifacts and policy decisions of the store. -/
  | note
  /-- Records on the side in the run's copy. -/
  | assign
  /-- Git commands and directories for workspaces. -/
  | git
  /-- The buffered steps go to the run's copy. -/
  | flush
  /-- The bookkeeping of the run's copy. -/
  | verdict
  /-- A failure is counted by the store. -/
  | fail
  /-- The run's copy is saved. -/
  | save
  /-- The run's copy is loaded. -/
  | load
  | relabel
  | lease
deriving DecidableEq, Repr

/-- The kind of an update. -/
def Update.kind : Update → OpKind
  | .select _ _ | .pushArtifact _ | .pushPolicyDecision _ | .pushApproval _ | .pushDecision _
  | .reserve _ _ _ _ | .finalize _ _ _ _ | .repoHealth _ _ => .assign
  | .complete _ | .noteFailure _ _ _ | .split _ _ | .block _ | .resumeFailure _ _
  | .replayFailure _ _ | .setApproval _ _ => .verdict

/-- The kind of a write. -/
def StoreCall.kind : StoreCall → OpKind
  | .save _ => .save
  | .recordFailure _ => .fail
  | .recordArtifact _ | .recordPolicyDecision _ => .note
  | .recordEvent _ | .recordRunStep _ => .step

/-- The kind of a role call: by its input. -/
def RoleInput.kind : RoleInput → OpKind
  | .execute _ _ => .execute
  | .select _ | .prompt _ _ _ _ | .judge _ _ => .role

/-- The kind of an operation. -/
def Op.kind : Op → OpKind
  | .now | .dateNow | .randomUUID | .aborted | .loadScope | .getPolicyDecision _ | .requireValid
  | .release | .readState | .readShared | .validateRole _ _ => .observe
  | .readCost => .budget
  | .selectionState => .role
  | .load => .load
  | .loadRevision => .relabel
  | .acquireRunLease => .lease
  | .write call => call.kind
  | .update u => u.kind
  | .updateShared _ => .share
  | .flush => .flush
  | .executeRole _ req _ | .executeRoleStep _ req _ _ => req.input.kind
  | .executeTool _ _ => .tool
  | .git _ | .mkdtemp _ => .git

/-- The program performs operations of the given kinds only. -/
def Does {α : Type} (P : OpKind → Prop) (m : Action α) : Prop := Act.Uses (fun o => P o.kind) m

section

variable {P : OpKind → Prop} {α β : Type}

theorem does_request {o : Op} (h : P o.kind) : Does P (request o) := ⟨h, fun _ => trivial⟩

theorem does_pure (a : α) : Does P (pure a : Action α) := Act.uses_pure a

theorem does_throw (e : RuntimeError) : Does P (throw e : Action α) := Act.uses_throw e

theorem does_ofExcept (r : Except RuntimeError α) : Does P (Act.ofExcept r : Action α) :=
  Act.uses_ofExcept r

theorem does_bind {m : Action α} {f : α → Action β} (hm : Does P m) (hf : ∀ a, Does P (f a)) :
    Does P (m >>= f) :=
  Act.uses_bind hm hf

theorem does_catching {m : Action α} {handler : RuntimeError → Action α} (hm : Does P m)
    (hh : ∀ e, Does P (handler e)) : Does P (Act.catching m handler) :=
  Act.uses_catching hm hh

theorem does_ite {c : Prop} [Decidable c] {m m' : Action α} (hm : Does P m) (hm' : Does P m') :
    Does P (if c then m else m') :=
  Act.uses_ite hm hm'

/-! ### Records -/

section Records

variable (observe : P .observe)
include observe

theorem does_guardedWrite {call : StoreCall} (h : P call.kind) : Does P (guardedWrite call) :=
  does_bind (does_request observe) fun _ => does_request h

theorem does_newArtifact (type : ArtifactType) (title : String)
    (metadata : List (String × String)) : Does P (newArtifact type title metadata) :=
  does_bind (does_request observe) fun _ => does_bind (does_request observe) fun _ => does_pure _

theorem does_newEvent (eventType : DomainEventType) (payload : List (String × Json Nat))
    (runId : String) : Does P (newEvent eventType payload runId) :=
  does_bind (does_request observe) fun _ => does_bind (does_request observe) fun _ => does_pure _

theorem does_recordEvent (step : P .step) (eventType : DomainEventType)
    (payload : List (String × Json Nat)) (runId : String) :
    Does P (recordEvent eventType payload runId) :=
  does_bind (does_newEvent observe _ _ _) fun _ => does_guardedWrite observe step

theorem does_recordArtifact (note : P .note) (artifact : ArtifactRecord) :
    Does P (recordArtifact artifact) :=
  does_guardedWrite observe note

theorem does_recordNew (note : P .note) (assign : P .assign) (type : ArtifactType)
    (title : String) (metadata : List (String × String)) :
    Does P (Runtime.recordNew type title metadata) :=
  does_bind (does_newArtifact observe _ _ _) fun _ =>
    does_bind (does_recordArtifact observe note _) fun _ => does_request assign

theorem does_record (share : P .share) (step : P .step) (host : Host)
    (input : RecordRunStepInput) : Does P (RunStepRecorder.record host input) := by
  refine does_bind (does_request observe) fun _ => does_bind (does_request observe) fun _ =>
    does_bind (does_ite (does_pure _) (does_request observe)) fun _ =>
      does_bind (does_request observe) fun _ => does_bind (does_guardedWrite observe step) fun _ =>
        does_request share

theorem does_persistAndRequire (note : P .note) (assign : P .assign)
    (input : PersistPolicyDecisionInput) :
    Does P (PolicyDecisionRecorder.persistAndRequire input) := by
  refine does_bind (does_request observe) fun _ => does_bind (does_request observe) fun _ =>
    does_bind (does_request observe) fun _ => does_bind (does_guardedWrite observe note) fun _ =>
      does_bind (does_request assign) fun _ => does_bind (does_request observe) fun _ =>
        does_ofExcept _

end Records

/-! ### Roles -/

section Roles

variable (rt : Runtime) {name : AgentRoleName}
  (observe : P .observe) (share : P .share) (step : P .step) (tool : P .tool)

include observe in
theorem does_signalAborted (context : RoleExecutionContext) : Does P (signalAborted context) :=
  does_ite (does_request observe) (does_pure _)

include observe in
theorem does_runWithTimeout (context : RoleExecutionContext) {m : Action α} (hm : Does P m) :
    Does P (runWithTimeout context m) := by
  refine does_bind (does_signalAborted observe context) fun _ => ?_
  exact does_ite (does_throw _) hm

include observe share step tool in
theorem does_invokeToolRequest (call : ToolCallRequest) (n : Nat) (roleName : String)
    (context : RoleExecutionContext) : Does P (rt.invokeToolRequest call n roleName context) := by
  have hrecord : ∀ input, Does P (RunStepRecorder.record rt.host input) :=
    does_record observe share step rt.host
  refine does_bind (does_request observe) fun _ => does_bind (does_request observe) fun _ =>
    does_catching ?_ fun _ => ?_
  · refine does_bind (does_runWithTimeout observe context ?_) fun _ => ?_
    · exact does_bind (does_request observe) fun _ => does_request tool
    · exact does_bind (does_request observe) fun _ => does_bind (hrecord _) fun _ =>
        does_bind (does_ofExcept _) fun _ => does_pure _
  · exact does_bind (does_request observe) fun _ => does_bind (hrecord _) fun _ => does_pure _

include observe share step tool in
theorem does_observeTool (call : ToolCallRequest) (n : Nat) (roleName : String)
    (context : RoleExecutionContext) : Does P (rt.observeTool call n roleName context) := by
  refine does_bind (does_recordEvent observe step _ _ _) fun _ => ?_
  refine does_bind (does_invokeToolRequest rt observe share step tool _ _ _ _) fun _ => ?_
  refine does_bind (does_recordEvent observe step _ _ _) fun _ => ?_
  exact does_bind (does_ite (does_recordEvent observe step _ _ _) (does_pure _)) fun _ =>
    does_pure _

end Roles

/-! ### Calls of roles

A call is followed operation by operation, as it matters which role is called with which
input. -/

/-- The kinds of operations of the action loop of a role, but for the calls of the role. -/
def OpKind.looping : OpKind → Prop
  | .observe | .share | .step | .tool => True
  | _ => False

/-- The kinds of operations of a call that bring no response. -/
def OpKind.quiet : OpKind → Prop
  | .observe | .share | .budget | .step | .tool => True
  | _ => False

theorem OpKind.looping.quiet {kind : OpKind} (h : kind.looping) : kind.quiet := by
  cases kind <;> first
    | exact trivial
    | exact h

/-- The operations of a call of the role `name` with an input. -/
inductive CallOp (name : AgentRoleName) (input : RoleInput) : Op → Prop
  | quiet {o : Op} (h : o.kind.quiet) : CallOp name input o
  | execute {req : RoleRequest} {context : RoleExecutionContext} (h : req.input = input) :
      CallOp name input (.executeRole name req context)
  | step {req : RoleRequest} {context : RoleExecutionContext}
      {observations : List RoleObservation} (h : req.input = input) :
      CallOp name input (.executeRoleStep name req context observations)

section Calls

variable (rt : Runtime) {name : AgentRoleName} {Q : Op → Prop}
  (looping : ∀ o : Op, o.kind.looping → Q o)

theorem uses_of_does {Q : Op → Prop} {m : Action α} (hm : Does P m) (h : ∀ o, P o.kind → Q o) :
    Act.Uses Q m :=
  Act.Uses.mono hm h

theorem uses_request {o : Op} (h : Q o) : Act.Uses Q (request o) := ⟨h, fun _ => trivial⟩

include looping in
theorem uses_looping {o : Op} (h : o.kind.looping) : Act.Uses Q (request o) :=
  uses_request (looping o h)

include looping in
theorem uses_signalAborted (context : RoleExecutionContext) :
    Act.Uses Q (signalAborted context) := by
  unfold signalAborted
  cases context.hasAbortSignal
  · exact Act.uses_pure _
  · exact uses_looping looping trivial

include looping in
theorem uses_runWithTimeout (context : RoleExecutionContext) {m : Action α} (hm : Act.Uses Q m) :
    Act.Uses Q (runWithTimeout context m) := by
  refine Act.uses_bind (uses_signalAborted looping context) fun aborted => ?_
  split
  · exact Act.uses_throw _
  · exact hm

/-- What a role may do. -/
structure RoleUses (Q : Op → Prop) (role : AgentRole name) : Prop where
  execute : Act.Uses Q role.execute
  executeStep : ∀ executeStep, role.executeStep = some executeStep →
    ∀ observations, Act.Uses Q (executeStep observations)
  validate : ∀ response, Act.Uses Q (role.validate response)

theorem roleUses_taskManagerRole (select : Q .selectionState) (host : Host) :
    RoleUses Q (taskManagerRole host) where
  execute := Act.uses_bind (uses_request select) fun _ => Act.uses_pure _
  executeStep := by
    intro _ h
    cases h
  validate _ := Act.uses_pure _

include looping in
/-- A registered role is called for one request in one context. -/
theorem roleUses_registered {req : RoleRequest} {context : RoleExecutionContext}
    (execute : Q (.executeRole name req context))
    (step : ∀ observations, Q (.executeRoleStep name req context observations)) :
    RoleUses Q (rt.registeredRole name req context) where
  execute := uses_runWithTimeout looping context (uses_request execute)
  executeStep := by
    intro executeStep h observations
    unfold Runtime.registeredRole at h
    dsimp only at h
    split at h
    · cases h
      exact uses_runWithTimeout looping context (uses_request (step observations))
    · cases h
  validate _ := uses_looping looping trivial

theorem roleUses_registeredRole (req : RoleRequest) (context : RoleExecutionContext) :
    RoleUses (CallOp name req.input) (rt.registeredRole name req context) :=
  roleUses_registered rt (fun _ h => .quiet h.quiet) (.execute rfl) fun _ => .step rfl

include looping in
theorem uses_roleLoop {executeStep : List RoleObservation → Action (RoleStepResult name)}
    (hstep : ∀ observations, Act.Uses Q (executeStep observations))
    (context : RoleExecutionContext) (roleStartedAt remaining n : Nat)
    (observations : List RoleObservation) :
    Act.Uses Q (rt.roleLoop executeStep context roleStartedAt remaining n observations) := by
  induction remaining generalizing n observations with
  | zero => exact Act.uses_throw _
  | succ remaining ih =>
    refine Act.uses_bind (uses_looping looping trivial) fun _ => ?_
    split
    · exact Act.uses_throw _
    refine Act.uses_bind (uses_signalAborted looping context) fun _ => ?_
    split
    · exact Act.uses_throw _
    refine Act.uses_bind (hstep _) fun result => ?_
    cases result with
    | finalOutput response => exact Act.uses_pure _
    | toolRequest call =>
      refine Act.uses_bind (uses_of_does ?_ looping) fun _ => ih _ _
      exact does_observeTool (P := OpKind.looping) rt trivial trivial trivial trivial _ _ _ _

include looping in
theorem uses_executeRoleWithLoop {role : AgentRole name} (hrole : RoleUses Q role)
    (context : RoleExecutionContext) : Act.Uses Q (rt.executeRoleWithLoop role context) := by
  unfold Runtime.executeRoleWithLoop
  split
  · exact hrole.execute
  · next executeStep hstep =>
    refine Act.uses_bind (uses_looping looping trivial) fun _ => ?_
    exact uses_roleLoop rt looping (hrole.executeStep executeStep hstep) _ _ _ _ _

/-- The checks on a response. -/
theorem uses_checkResponse {role : AgentRole name} (hrole : RoleUses Q role)
    (response : RoleResponse name) : Act.Uses Q (Runtime.checkResponse role response) :=
  Act.uses_bind (hrole.validate response) fun _ => Act.uses_ofExcept _

include looping in
theorem uses_recordStep (input : RecordRunStepInput) :
    Act.Uses Q (RunStepRecorder.record rt.host input) :=
  uses_of_does (does_record (P := OpKind.looping) trivial trivial trivial rt.host input) looping

include looping in
theorem uses_acceptResponse (req : RoleRequest) (context : RoleExecutionContext) (model : String)
    (startedAt : Nat) (response : RoleResponse name) :
    Act.Uses Q (rt.acceptResponse req context model startedAt response) :=
  Act.uses_bind (uses_looping looping trivial) fun _ =>
    Act.uses_bind (uses_recordStep rt looping _) fun _ => uses_looping looping trivial

include looping in
/-- What follows the first attempt of a call. -/
theorem uses_attempts {role : AgentRole name} (hrole : RoleUses Q role) (req : RoleRequest)
    (context : RoleExecutionContext) (model : String) (startedAt : Nat)
    (firstAttempt : RoleResponse name) :
    Act.Uses Q (Act.catching
      (do
        Runtime.checkResponse role firstAttempt
        rt.acceptResponse req context model startedAt firstAttempt
        pure firstAttempt)
      (fun _ => do
        let secondAttempt ← rt.executeRoleWithLoop role context
        Act.catching (Runtime.checkResponse role secondAttempt)
          (fun validationError => do
            let finishedAt : Nat ← request .dateNow
            RunStepRecorder.record rt.host
              (Runtime.roleStep name req context (.text validationError.message) .failed
                (finishedAt - startedAt))
            throw
              { cls := .schemaValidation, message := "Role response schema validation failed" })
        rt.acceptResponse req context model startedAt secondAttempt
        pure secondAttempt)) := by
  have hcheck : ∀ response, Act.Uses Q (Runtime.checkResponse role response) :=
    uses_checkResponse hrole
  have haccept := fun response : RoleResponse name =>
    uses_acceptResponse rt looping req context model startedAt response
  refine Act.uses_catching ?_ fun _ => ?_
  · exact Act.uses_bind (hcheck _) fun _ => Act.uses_bind (haccept _) fun _ => Act.uses_pure _
  · refine Act.uses_bind (uses_executeRoleWithLoop rt looping hrole context) fun _ => ?_
    refine Act.uses_bind (Act.uses_catching (hcheck _) fun _ => ?_) fun _ =>
      Act.uses_bind (haccept _) fun _ => Act.uses_pure _
    exact Act.uses_bind (uses_looping looping trivial) fun _ =>
      Act.uses_bind (uses_recordStep rt looping _) fun _ => Act.uses_throw _

/-- **The footprint of a role call.** -/
theorem uses_executeRole (quiet : ∀ o : Op, o.kind.quiet → Q o) {role : AgentRole name}
    (hrole : RoleUses Q role) (req : RoleRequest) (context : RoleExecutionContext) :
    Act.Uses Q (rt.executeRole role req context) := by
  have hquiet : ∀ {o : Op}, o.kind.quiet → Act.Uses Q (request o) := fun h =>
    uses_request (quiet _ h)
  have looping : ∀ o : Op, o.kind.looping → Q o := fun o h => quiet o h.quiet
  refine Act.uses_bind (hquiet trivial) fun _ => Act.uses_bind (hquiet trivial) fun _ => ?_
  refine Act.uses_bind (Act.uses_ofExcept _) fun _ => Act.uses_bind (hquiet trivial) fun _ => ?_
  exact Act.uses_bind (uses_executeRoleWithLoop rt looping hrole context) fun firstAttempt =>
    uses_attempts rt looping hrole req context _ _ firstAttempt

/-- A stage's call of a role. -/
theorem uses_callRole (run : Runtime.TaskRun) (name : AgentRoleName) (objective : String)
    (input : RoleInput) (acceptanceCriteria : List String) :
    Act.Uses (CallOp name input) (rt.callRole run name objective input acceptanceCriteria) := by
  refine Act.uses_bind (uses_request (.quiet trivial)) fun _ => ?_
  dsimp only
  exact uses_executeRole rt (fun _ h => .quiet h)
    (roleUses_registeredRole rt { role := name, objective, input, acceptanceCriteria } _) _ _

end Calls

section Calls

variable (rt : Runtime) (observe : P .observe) (share : P .share) (budget : P .budget)
  (step : P .step) (tool : P .tool)

include observe share budget step tool in
theorem quiet_kind {kind : OpKind} (h : kind.quiet) : P kind := by
  cases kind <;> first
    | assumption
    | exact absurd h id

include observe share budget step tool in
theorem does_callRole (run : Runtime.TaskRun) (name : AgentRoleName) (objective : String)
    {input : RoleInput} (hrole : P input.kind) (acceptanceCriteria : List String) :
    Does P (rt.callRole run name objective input acceptanceCriteria) := by
  refine (uses_callRole rt run name objective input acceptanceCriteria).mono fun o ho => ?_
  cases ho with
  | quiet h => exact quiet_kind observe share budget step tool h
  | execute h => exact (congrArg (fun input => P input.kind) h).mpr hrole
  | step h => exact (congrArg (fun input => P input.kind) h).mpr hrole

end Calls

/-! ### The git lifecycle -/

section Git

variable (git : P .git)

include git in
theorem does_tryGit (command : GitCommand) : Does P (tryGit command) :=
  does_catching (does_bind (does_request git) fun _ => does_pure _) fun _ => does_pure _

include git in
theorem does_workspaceHasGitChanges (root : String) : Does P (workspaceHasGitChanges root) := by
  refine does_bind (does_tryGit git _) fun stdout => ?_
  cases stdout with
  | none => exact does_pure _
  | some stdout => exact does_pure _

include git in
theorem does_createCommit (root commitMessage : String) :
    Does P (createCommit root commitMessage) :=
  does_catching
    (does_bind (does_request git) fun _ => does_bind (does_request git) fun _ =>
      does_bind (does_request git) fun _ => does_pure _)
    fun _ => does_pure _

include git in
theorem does_detectRiskyActionsFromCommit (rt : Runtime) (root commitSha : String) :
    Does P (rt.detectRiskyActionsFromCommit root commitSha) := by
  refine does_bind (does_bind (does_tryGit git _) fun stdout => ?_) fun lines => does_pure _
  cases stdout with
  | none => exact does_pure _
  | some stdout => exact does_pure _

include git in
theorem does_lifecycleBranch (input : GitLifecycleInput) :
    Does P (Runtime.lifecycleBranch input) := by
  unfold Runtime.lifecycleBranch
  split
  · exact does_pure _
  · refine does_bind (does_bind (does_tryGit git _) fun stdout => ?_) fun _ => does_pure _
    cases stdout with
    | none => exact does_pure _
    | some stdout => exact does_pure _

variable (rt : Runtime) (input : GitLifecycleInput) (observe : P .observe) (step : P .step)
  (note : P .note) (assign : P .assign)

include observe step assign in
theorem does_evaluateApprovalGate (runId taskId : String) (action : ApprovalRequestedAction)
    (reason : String) (metadata : List (String × String)) :
    Does P (evaluateApprovalGate runId taskId action reason metadata) := by
  refine does_bind (does_request observe) fun state => ?_
  split
  · exact does_pure _
  · exact does_bind (does_request observe) fun _ => does_bind (does_request observe) fun _ =>
      does_bind (does_request assign) fun _ =>
        does_bind (does_recordEvent observe step _ _ _) fun _ => does_pure _

include observe assign in
theorem does_reserveSideEffect (key leaseOwner nowIso : String) :
    Does P (reserveSideEffect key leaseOwner nowIso) :=
  does_bind (does_request observe) fun _ => does_bind (does_ofExcept _) fun _ =>
    does_bind (does_request assign) fun _ => does_pure _

include observe assign in
theorem does_completeSideEffect (key : String) (succeeded : Bool) :
    Does P (completeSideEffect key succeeded) :=
  does_bind (does_request observe) fun _ => does_bind (does_request observe) fun _ =>
    does_request assign

include observe step assign in
theorem does_evaluateRiskGates (branchName commitSha : String)
    (actions : List ApprovalRequestedAction) :
    Does P (rt.evaluateRiskGates input branchName commitSha actions) := by
  induction actions with
  | nil => exact does_pure _
  | cons action actions ih =>
    unfold Runtime.evaluateRiskGates
    refine does_ite ?_ ih
    exact does_bind (does_evaluateApprovalGate observe step assign _ _ _ _ _) fun _ =>
      does_bind ih fun _ => does_pure _

include observe step assign in
theorem does_evaluatePushGate (branchName commitSha : String) :
    Does P (rt.evaluatePushGate input branchName commitSha) :=
  does_ite (does_evaluateApprovalGate observe step assign _ _ _ _ _) (does_pure _)

include git observe note assign in
theorem does_pushOnce (branchName commitSha : String) :
    Does P (rt.pushOnce input branchName commitSha) := by
  refine does_bind (does_request observe) fun _ => does_bind (does_ofExcept _) fun _ =>
    does_bind (does_request observe) fun _ =>
      does_bind (does_reserveSideEffect observe assign _ _ _) fun _ =>
        does_ite (does_pure _) ?_
  refine does_bind (does_persistAndRequire observe note assign _) fun _ =>
    does_bind (does_request observe) fun _ =>
      does_bind (does_bind (does_tryGit git _) fun _ => does_pure _) fun _ =>
        does_bind (does_completeSideEffect observe assign _ _) fun _ => does_pure _

include git observe step note assign in
theorem does_pushCommit (branchName commitSha : String) :
    Does P (rt.pushCommit input branchName commitSha) := by
  refine does_bind (does_ite ?_ (does_pure _)) fun _ => ?_
  · exact does_bind (does_detectRiskyActionsFromCommit git rt _ _) fun _ =>
      does_evaluateRiskGates rt input observe step assign _ _ _
  · refine does_bind (does_evaluatePushGate rt input observe step assign _ _) fun status => ?_
    cases status with
    | rejected | pending | approved => exact does_pure _
    | resumed | completed =>
      exact does_bind (does_pushOnce git rt input observe note assign _ _) fun _ => does_pure _

include git observe step note assign in
theorem does_commitAndPush (branchName : String) : Does P (rt.commitAndPush input branchName) := by
  refine does_bind (does_request observe) fun _ => does_bind (does_request observe) fun _ =>
    does_bind (does_ofExcept _) fun _ =>
      does_bind (does_reserveSideEffect observe assign _ _ _) fun _ =>
        does_ite (does_pure _) ?_
  refine does_bind (does_persistAndRequire observe note assign _) fun _ =>
    does_bind (does_request observe) fun _ =>
      does_bind (does_createCommit git _ _) fun committed =>
        does_bind (does_completeSideEffect observe assign _ _) fun _ => ?_
  cases committed with
  | none => exact does_pure _
  | some commitSha =>
    exact does_bind (does_pushCommit git rt input observe step note assign _ _) fun _ =>
      does_pure _

include git observe note assign in
theorem does_createPrOnce (branchName commitSha : String) :
    Does P (rt.createPrOnce input branchName commitSha) := by
  refine does_bind (does_request observe) fun _ => does_bind (does_ofExcept _) fun _ =>
    does_bind (does_request observe) fun _ =>
      does_bind (does_reserveSideEffect observe assign _ _ _) fun _ =>
        does_ite (does_pure _) ?_
  refine does_bind (does_persistAndRequire observe note assign _) fun _ =>
    does_bind (does_request observe) fun _ =>
      does_bind (does_bind (does_tryGit git _) fun _ => does_pure _) fun _ =>
        does_bind (does_completeSideEffect observe assign _ _) fun _ => does_pure _

include git observe step note assign in
theorem does_draftPullRequest (branchName commitSha : String) :
    Does P (rt.draftPullRequest input branchName commitSha) := by
  refine does_bind
    (does_ite (does_evaluateApprovalGate observe step assign _ _ _ _ _) (does_pure _))
    fun status => ?_
  cases status with
  | rejected | pending | approved => exact does_pure _
  | resumed | completed =>
    exact does_bind (does_createPrOnce git rt input observe note assign _ _) fun _ => does_pure _

include git observe step note assign in
theorem does_finishLifecycle (branchName : String) (outcome : Runtime.CommitOutcome) :
    Does P (rt.finishLifecycle input branchName outcome) := by
  refine does_bind (does_recordNew observe note assign _ _ _) fun _ => ?_
  refine does_bind
    (does_ite (does_draftPullRequest git rt input observe step note assign _ _) (does_pure _))
    fun _ => ?_
  refine does_bind (does_recordNew observe note assign _ _ _) fun _ => ?_
  exact does_ite
    (does_bind (does_recordNew observe note assign _ _ _) fun _ => does_pure _) (does_pure _)

include git observe step note assign in
/-- **The footprint of the git lifecycle.** -/
theorem does_completeGitLifecycle : Does P (rt.completeGitLifecycle input) := by
  refine does_bind (does_lifecycleBranch git _) fun _ => ?_
  refine does_bind (does_workspaceHasGitChanges git _) fun _ => ?_
  refine does_bind
    (does_ite (does_commitAndPush git rt input observe step note assign _) (does_pure _))
    fun _ => ?_
  exact does_finishLifecycle git rt input observe step note assign _ _

end Git

/-! ### The stages of a run -/

section Stages

variable (rt : Runtime) (run : Runtime.TaskRun) (observe : P .observe) (share : P .share)
  (budget : P .budget) (step : P .step) (tool : P .tool) (note : P .note) (assign : P .assign)

include observe share budget step tool note assign in
theorem does_optimizePrompt (role : P .role) : Does P (rt.optimizePrompt run) := by
  refine does_bind (does_request observe) fun _ => ?_
  refine does_bind (does_callRole rt observe share budget step tool run _ _ (by exact role) _) fun _ => ?_
  refine does_bind (does_recordEvent observe step _ _ _) fun _ => ?_
  exact does_bind (does_recordNew observe note assign _ _ _) fun _ => does_pure _

theorem does_listWorkspaceChangedFiles (git : P .git) (workspaceRoot : String) :
    Does P (Runtime.listWorkspaceChangedFiles workspaceRoot) := by
  refine does_bind (does_tryGit git _) fun stdout => ?_
  cases stdout with
  | none => exact does_pure _
  | some stdout => exact does_pure _

include observe note assign in
theorem does_persistQualityStageArtifacts (runId taskId : String)
    (qualityStages : Option (List QualityStageResult)) :
    Does P (Runtime.persistQualityStageArtifacts runId taskId qualityStages) :=
  Act.uses_forEach fun _ => does_recordNew observe note assign _ _ _

include observe note assign in
theorem does_recordRunCostSummary (outcome : RunOutcome) :
    Does P (Runtime.recordRunCostSummary run outcome) := by
  refine does_bind (does_request observe) fun _ => ?_
  refine does_bind (does_newArtifact observe _ _ _) fun _ => ?_
  refine does_bind (Act.uses_ignoring (does_recordArtifact observe note _)) fun _ => ?_
  exact does_request assign

end Stages

/-- The operations of the failure handler: records, the save of the copy, and the assignments
to the bookkeeping of its task. -/
inductive FailureOp (handle : TaskHandle) : Op → Prop
  | record {o : Op}
      (h : o.kind = .observe ∨ o.kind = .step ∨ o.kind = .note ∨ o.kind = .assign) :
      FailureOp handle o
  | count (input : RecordFailureInput) : FailureOp handle (.write (.recordFailure input))
  | noteFailure (failure : FailureRecord) (retryCount : Nat) :
      FailureOp handle (.update (.noteFailure handle.task.id failure retryCount))
  | flush : FailureOp handle .flush
  | split (reason : String) :
      FailureOp handle (.update (.split handle (splitTaskForRetry handle.task reason)))
  | block : FailureOp handle (.update (.block handle))
  | save (events : List DomainEvent) : FailureOp handle (.write (.save events))

/-- **The footprint of the failure handler.** -/
theorem uses_handleFailure (rt : Runtime) (handle : TaskHandle) (role : RuntimeFailureRole)
    (reason runId : String) :
    Act.Uses (FailureOp handle) (rt.handleFailure handle role reason runId) := by
  have hrequest : ∀ {o : Op}, FailureOp handle o → Act.Uses (FailureOp handle) (request o) :=
    fun h => ⟨h, fun _ => trivial⟩
  have hrecord : ∀ {β : Type} {m : Action β},
      Does (fun kind => kind = .observe ∨ kind = .step ∨ kind = .note ∨ kind = .assign) m →
        Act.Uses (FailureOp handle) m := fun hm => uses_of_does hm fun _ h => .record h
  have hobserve : ∀ {o : Op}, o.kind = .observe → Act.Uses (FailureOp handle) (request o) :=
    fun h => hrequest (.record (Or.inl h))
  have hsave : ∀ events, Act.Uses (FailureOp handle) (saveWithEvents events) := fun events =>
    Act.uses_bind (hobserve rfl) fun _ => hrequest (.save events)
  refine Act.uses_bind (hobserve rfl) fun state => ?_
  refine Act.uses_bind (hobserve rfl) fun now => ?_
  refine Act.uses_bind (Act.uses_bind (hobserve rfl) fun _ => hrequest (.count _)) fun counted => ?_
  refine Act.uses_bind (hrequest (.noteFailure _ _)) fun _ => ?_
  refine Act.uses_bind (hrequest .flush) fun _ => ?_
  split
  · refine Act.uses_bind (hrequest (.split reason)) fun _ => ?_
    refine Act.uses_bind (hobserve rfl) fun _ => Act.uses_bind (hobserve rfl) fun _ => ?_
    refine Act.uses_bind (hobserve rfl) fun _ => Act.uses_bind (hobserve rfl) fun _ => ?_
    refine Act.uses_bind (hrequest (.record (by simp [Op.kind, Update.kind]))) fun _ => ?_
    refine Act.uses_bind (hrequest (.record (by simp [Op.kind, Update.kind]))) fun _ => ?_
    refine Act.uses_bind (hrecord (does_newEvent (Or.inl rfl) _ _ _)) fun _ => ?_
    exact Act.uses_bind (hsave _) fun _ => Act.uses_pure _
  · refine Act.uses_bind (hrequest .block) fun _ => ?_
    refine Act.uses_bind (hobserve rfl) fun _ => Act.uses_bind (hobserve rfl) fun _ => ?_
    refine Act.uses_bind (hrequest (.record (by simp [Op.kind, Update.kind]))) fun _ => ?_
    refine Act.uses_bind (hrecord (does_recordArtifact (Or.inl rfl) (by simp) _)) fun _ => ?_
    refine Act.uses_bind (hrecord (does_newEvent (Or.inl rfl) _ _ _)) fun _ => ?_
    exact Act.uses_bind (hsave _) fun _ => Act.uses_pure _
  · exact Act.uses_bind (hsave _) fun _ => Act.uses_pure _

/-! ### Whole runs -/

/-- The kinds of operations by which a run neither calls a role with a task, nor assigns to
the bookkeeping, nor saves or loads its copy. -/
def OpKind.plain : OpKind → Prop
  | .observe | .share | .budget | .step | .tool | .note | .assign | .git | .flush => True
  | _ => False

theorem OpKind.plain_of_quiet {kind : OpKind} (h : kind.quiet) : kind.plain :=
  quiet_kind (P := OpKind.plain) trivial trivial trivial trivial trivial h

/-- **What a run of a task can do.** -/
inductive RunOp (handle : TaskHandle) : Op → Prop
  | plain {o : Op} (h : o.kind.plain) : RunOp handle o
  | prompt {o : Op} (stateSummary : String) (failures : List FailureRecord) (schema : Json Nat)
      (h : CallOp .promptEngineer (.prompt handle.task stateSummary failures schema) o) :
      RunOp handle o
  | execute {o : Op} (prompt : OptimizedPrompt)
      (h : CallOp (routeTaskToRole handle.task) (.execute handle.task prompt) o) : RunOp handle o
  | review {o : Op} (result : Json Nat) (h : CallOp .reviewer (.judge handle.task result) o) :
      RunOp handle o
  | test {o : Op} (result : Json Nat) (h : CallOp .tester (.judge handle.task result) o) :
      RunOp handle o
  | failure {o : Op} (h : FailureOp handle o) : RunOp handle o
  | complete : RunOp handle (.update (.complete handle))
  | save (events : List DomainEvent) : RunOp handle (.write (.save events))

section Runs

variable (rt : Runtime)

theorem uses_plain {handle : TaskHandle} {m : Action α} (hm : Does OpKind.plain m) :
    Act.Uses (RunOp handle) m :=
  uses_of_does hm fun _ h => .plain h

theorem uses_plainRequest {handle : TaskHandle} {o : Op} (h : o.kind.plain) :
    Act.Uses (RunOp handle) (request o) :=
  uses_request (.plain h)

section Stages

variable (run : Runtime.TaskRun)

theorem uses_optimizePrompt : Act.Uses (RunOp run.handle) (rt.optimizePrompt run) := by
  refine Act.uses_bind (uses_plainRequest trivial) fun _ => ?_
  refine Act.uses_bind ((uses_callRole rt run _ _ _ _).mono fun _ h => .prompt _ _ _ h)
    fun _ => ?_
  refine Act.uses_bind (uses_plain (does_recordEvent trivial trivial _ _ _)) fun _ => ?_
  exact Act.uses_bind (uses_plain (does_recordNew trivial trivial trivial _ _ _)) fun _ =>
    Act.uses_pure _

theorem uses_executeTask (prompt : OptimizedPrompt) :
    Act.Uses (RunOp run.handle) (rt.executeTask run prompt) := by
  refine Act.uses_bind ((uses_callRole rt run _ _ _ _).mono fun _ h => .execute prompt h)
    fun _ => ?_
  refine Act.uses_bind (uses_plainRequest trivial) fun _ => ?_
  refine Act.uses_bind (Act.uses_bind
    (uses_plain (does_listWorkspaceChangedFiles trivial _)) fun _ => Act.uses_ofExcept _)
    fun _ => ?_
  exact Act.uses_bind (uses_plain (does_recordEvent trivial trivial _ _ _)) fun _ =>
    Act.uses_pure _

theorem uses_reviewTask (result : Json Nat) :
    Act.Uses (RunOp run.handle) (rt.reviewTask run result) := by
  have hevent : ∀ eventType, Act.Uses (RunOp run.handle)
      (recordEvent eventType [("taskId", .str run.handle.task.id)] run.runId) := fun eventType =>
    uses_plain (does_recordEvent trivial trivial eventType _ _)
  refine Act.uses_bind ((uses_callRole rt run _ _ _ _).mono fun _ h => .review result h)
    fun _ => ?_
  dsimp only
  split
  · exact Act.uses_bind (hevent _) fun _ => Act.uses_pure _
  · exact Act.uses_bind (hevent _) fun _ => Act.uses_pure _

theorem uses_testTask (result : Json Nat) :
    Act.Uses (RunOp run.handle) (rt.testTask run result) := by
  have hevent : ∀ eventType, Act.Uses (RunOp run.handle)
      (recordEvent eventType [("taskId", .str run.handle.task.id)] run.runId) := fun eventType =>
    uses_plain (does_recordEvent trivial trivial eventType _ _)
  have hstages : ∀ stages, Act.Uses (RunOp run.handle)
      (Runtime.persistQualityStageArtifacts run.runId run.handle.task.id stages) := fun stages =>
    uses_plain (does_persistQualityStageArtifacts trivial trivial trivial _ _ stages)
  refine Act.uses_bind ((uses_callRole rt run _ _ _ _).mono fun _ h => .test result h)
    fun _ => ?_
  dsimp only
  split
  · refine Act.uses_bind (uses_plainRequest trivial) fun _ => ?_
    exact Act.uses_bind (hstages _) fun _ => Act.uses_bind (hevent _) fun _ => Act.uses_pure _
  · refine Act.uses_bind (uses_plainRequest trivial) fun _ => ?_
    refine Act.uses_bind (Act.uses_ofExcept _) fun _ => ?_
    exact Act.uses_bind (hstages _) fun _ => Act.uses_bind (hevent _) fun _ => Act.uses_pure _

/-- The completion calls no role. -/
theorem uses_completeTask {Q : Op → Prop} (plain : ∀ o : Op, o.kind.plain → Q o)
    (complete : Q (.update (.complete run.handle))) (save : ∀ events, Q (.write (.save events)))
    (summary : String) : Act.Uses Q (rt.completeTask run summary) := by
  have hplain : ∀ {β : Type} {m : Action β}, Does OpKind.plain m → Act.Uses Q m := fun hm =>
    uses_of_does hm plain
  have hrequest : ∀ {o : Op}, o.kind.plain → Act.Uses Q (request o) := fun h =>
    uses_request (plain _ h)
  have hartifact := does_newArtifact (P := OpKind.plain) trivial .runSummary
  have hrecord := does_recordArtifact (P := OpKind.plain) trivial trivial
  refine Act.uses_bind (uses_request complete) fun _ => ?_
  refine Act.uses_bind (hplain (hartifact _ _)) fun _ => ?_
  refine Act.uses_bind (hplain (hartifact _ _)) fun _ => ?_
  refine Act.uses_bind (hplain (hrecord _)) fun _ => ?_
  refine Act.uses_bind (hplain (hrecord _)) fun _ => ?_
  refine Act.uses_bind (hrequest trivial) fun _ => ?_
  refine Act.uses_bind (hrequest trivial) fun _ => ?_
  refine Act.uses_bind (hplain (does_completeGitLifecycle trivial rt _ trivial trivial trivial
    trivial)) fun status => ?_
  refine Act.uses_bind (hplain (does_persistAndRequire trivial trivial trivial _)) fun _ => ?_
  refine Act.uses_bind (hplain (does_newEvent trivial _ _ _)) fun _ => ?_
  refine Act.uses_bind (hrequest trivial) fun _ => ?_
  refine Act.uses_bind (Act.uses_bind (hrequest trivial) fun _ => uses_request (save _)) fun _ => ?_
  cases status <;> exact Act.uses_pure _

theorem uses_runTaskBody : Act.Uses (RunOp run.handle) (rt.runTaskBody run) := by
  have hfailure : ∀ role reason, Act.Uses (RunOp run.handle)
      (rt.handleFailure run.handle role reason run.runId) := fun role reason =>
    (uses_handleFailure rt run.handle role reason run.runId).mono fun _ h => .failure h
  refine Act.uses_bind (uses_plainRequest trivial) fun _ => ?_
  refine Act.uses_bind (uses_plain (does_recordEvent trivial trivial _ _ _)) fun _ => ?_
  refine Act.uses_bind (uses_plain (does_persistAndRequire trivial trivial trivial _)) fun _ => ?_
  refine Act.uses_bind (uses_optimizePrompt rt run) fun prompt => ?_
  refine Act.uses_bind (uses_executeTask rt run prompt) fun response => ?_
  refine Act.uses_bind (m := if requiresReview run.handle.task then
    rt.reviewTask run response.payload else pure true) ?_ fun approved => ?_
  · split
    · exact uses_reviewTask rt run _
    · exact Act.uses_pure _
  split
  · exact Act.uses_bind (hfailure _ _) fun _ => Act.uses_pure _
  refine Act.uses_bind (m := if requiresTesting run.handle.task then
    rt.testTask run response.payload else pure true) ?_ fun passed => ?_
  · split
    · exact uses_testTask rt run _
    · exact Act.uses_pure _
  split
  · exact Act.uses_bind (hfailure _ _) fun _ => Act.uses_pure _
  · exact Act.uses_bind (Act.uses_ofExcept _) fun _ =>
      uses_completeTask rt run (fun _ h => .plain h) .complete .save _

/-- **The footprint of a run.** -/
theorem uses_runTask : Act.Uses (RunOp run.handle) (rt.runTask run) := by
  refine Act.uses_bind (uses_plainRequest trivial) fun _ => ?_
  refine Act.uses_bind (uses_plainRequest trivial) fun _ => ?_
  refine Act.uses_bind (uses_plainRequest trivial) fun _ => ?_
  refine Act.uses_bind (Act.uses_finallyDo (uses_runTaskBody rt run) fun _ => ?_) fun _ =>
    Act.uses_pure _
  exact Act.uses_bind (uses_plain (does_recordRunCostSummary run trivial trivial trivial _))
    fun _ => uses_plainRequest trivial

end Stages

end Runs

end

end AiOrchestrator
