import AiOrchestrator.Execution.Recorders

/-!
# The git lifecycle

`packages/execution/src/git/git-lifecycle-coordinator.ts`: after a task is completed its
changes are committed, pushed and offered as a draft pull request, each step behind the
dedup registry and a policy decision, the push and the pull request also behind the
approval gate. `complete` is cut where its stages end; the stages pass on what the source
keeps in the local variables `commitStatus`, `pushStatus`, `commitSha`, `prStatus` and
`isWaitingForApproval`.
-/

namespace AiOrchestrator

/-! ### Statuses -/

inductive CommitStatus
  | skippedNoChanges | skippedDuplicate | created | failed
deriving DecidableEq, Repr

def CommitStatus.text : CommitStatus → String
  | .skippedNoChanges => "skipped_no_changes"
  | .skippedDuplicate => "skipped_duplicate"
  | .created => "created"
  | .failed => "failed"

inductive PushStatus
  | skippedNoChanges | skippedDuplicate | skippedCommitFailed | skippedRejected | pendingApproval
  | waitingResume | pushed | failed
deriving DecidableEq, Repr

def PushStatus.text : PushStatus → String
  | .skippedNoChanges => "skipped_no_changes"
  | .skippedDuplicate => "skipped_duplicate"
  | .skippedCommitFailed => "skipped_commit_failed"
  | .skippedRejected => "skipped_rejected"
  | .pendingApproval => "pending_approval"
  | .waitingResume => "waiting_resume"
  | .pushed => "pushed"
  | .failed => "failed"

inductive PrStatus
  | skippedPushNotSuccessful | skippedRejected | pendingApproval | waitingResume
  | skippedDuplicate | created | failed
deriving DecidableEq, Repr

def PrStatus.text : PrStatus → String
  | .skippedPushNotSuccessful => "skipped_push_not_successful"
  | .skippedRejected => "skipped_rejected"
  | .pendingApproval => "pending_approval"
  | .waitingResume => "waiting_resume"
  | .skippedDuplicate => "skipped_duplicate"
  | .created => "created"
  | .failed => "failed"

inductive GitLifecycleStatus
  | ok | approvalPending
deriving DecidableEq, Repr

structure GitLifecycleInput where
  runId : String
  taskId : String
  taskTitle : String
  branchName : Option String
  workspaceRoot : String

/-! ### Risky actions -/

def describeRiskAction : ApprovalRequestedAction → String
  | .gitPush => "Push branch to origin"
  | .prDraft => "Create draft pull request"
  | .dbMigration => "Database migration files changed"
  | .fileDelete => "One or more files were deleted"
  | .apiBreakingChange => "Potential public API surface change detected"
  | .dependencyBump => "Dependency manifest or lock file changed"
  | .securityAuthChange => "Security/auth-related files changed"
  | .productionConfigChange => "Production configuration files changed"
  | .bulkFileChange => "Large batch of files changed"

/-- The status and the path of a line of `git show --name-status`, when it has both. -/
def parseNameStatus (line : String) : Option (String × String) :=
  match Text.splitOnChar '\t' line with
  | status :: rest =>
    match rest.getLast? with
    | some filePath => if status = "" ∨ filePath = "" then none else some (status, filePath)
    | none => none
  | [] => none

/-- The actions that a changed path stands for. -/
def riskyActionsOfPath (status filePath : String) : List ApprovalRequestedAction :=
  let normalized := Text.lowerCase filePath
  (if Text.startsWith status "D" then [.fileDelete] else []) ++
  (if Text.endsWith normalized "package.json" || Text.endsWith normalized "package-lock.json" ||
      Text.endsWith normalized "pnpm-lock.yaml" then [.dependencyBump] else []) ++
  (if Text.includes normalized "migration" || Text.endsWith normalized ".sql" then
    [.dbMigration] else []) ++
  (if Text.includes normalized "/auth/" || Text.includes normalized "/security/" then
    [.securityAuthChange] else []) ++
  (if Text.endsWith normalized ".env" || Text.includes normalized "/k8s/" ||
      Text.includes normalized "/helm/" || Text.includes normalized "/deploy/" ||
      Text.includes normalized "/terraform/" then [.productionConfigChange] else []) ++
  (if Text.includes normalized "/api/" || Text.includes normalized "/public/" ||
      Text.endsWith normalized "/index.ts" || Text.includes normalized "/contracts/" then
    [.apiBreakingChange] else [])

/-- The actions of `detectRiskyActionsFromCommit`, from the lines of the commit. -/
def detectRiskyActions (bulkFileThreshold : Nat) (lines : List String) :
    List ApprovalRequestedAction :=
  let changed := lines.filterMap parseNameStatus
  let actions := changed.flatMap fun change => riskyActionsOfPath change.1 change.2
  (actions ++ (if bulkFileThreshold ≤ changed.length then
    [ApprovalRequestedAction.bulkFileChange] else [])).eraseDups

/-- The non-empty lines of an output. -/
def outputLines (stdout : String) : List String :=
  ((Text.splitOnChar '\n' stdout).map Text.trim).filter (· ≠ "")

/-! ### Git commands -/

/-- A git command whose failure the caller ignores. -/
def tryGit (command : GitCommand) : Action (Option String) :=
  Act.catching
    (do
      let stdout : String ← request (.git command)
      pure (some stdout))
    (fun _ => pure none)

/-- A command whose failure is ignored answers with its output, if there is one. -/
theorem exec_tryGit {S : Type} (handle : (o : Op) → S → o.Ans × S) (command : GitCommand) (s : S) :
    (tryGit command).exec handle s =
      (.ok (handle (.git command) s).1.toOption, (handle (.git command) s).2) := by
  have hcommand : Act.exec handle (do
      let stdout : String ← request (.git command)
      pure (some stdout)) s =
      ((handle (.git command) s).1.map some, (handle (.git command) s).2) := by
    show Prog.exec handle (ExceptT.bindCont _ (handle (.git command) s).1) _ = _
    cases (handle (.git command) s).1 <;> rfl
  rw [tryGit, Act.exec_catching, hcommand]
  cases (handle (.git command) s).1 <;> rfl

/-- `workspaceHasGitChanges`. -/
def workspaceHasGitChanges (root : String) : Action Bool := do
  match ← tryGit (.statusShort root) with
  | some stdout => pure (Text.trim stdout ≠ "")
  | none => pure false

/-- `currentGitBranch`. -/
def currentGitBranch (root : String) : Action (Option String) := do
  match ← tryGit (.showCurrentBranch root) with
  | some stdout =>
    let branch := Text.trim stdout
    pure (if branch ≠ "" then some branch else none)
  | none => pure none

/-- `createCommit`: the sha of the commit, or nothing when one of the commands failed. -/
def createCommit (root commitMessage : String) : Action (Option String) :=
  Act.catching
    (do
      let _ ← request (.git (.add root))
      let _ ← request (.git (.commit root commitMessage))
      let stdout : String ← request (.git (.revParseHead root))
      pure (some (Text.trim stdout)))
    (fun _ => pure none)

/-- `pushBranch`. -/
def pushBranch (root branchName : String) : Action Bool := do
  let pushed ← tryGit (.push root branchName)
  pure pushed.isSome

/-- `createPullRequestDraft`. -/
def createPullRequestDraft (root branchName title body : String) : Action Bool := do
  let created ← tryGit (.prCreate root branchName title body)
  pure created.isSome

/-- `readCommitNameStatus`. -/
def readCommitNameStatus (root commitSha : String) : Action (List String) := do
  match ← tryGit (.showNameStatus root commitSha) with
  | some stdout => pure (outputLines stdout)
  | none => pure []

/-! ### The approval gate -/

/-- The request that a gate finds: the first that is not completed. -/
def findApproval (approvals : List ApprovalRequest) (runId taskId : String)
    (action : ApprovalRequestedAction) : Option ApprovalRequest :=
  approvals.find? fun request =>
    request.runId = runId && request.taskId = taskId && request.requestedAction = action &&
      request.status ≠ .completed

/-- **`evaluateApprovalGate`**: the status of the request that is there, or a new pending
one. -/
def evaluateApprovalGate (runId taskId : String) (requestedAction : ApprovalRequestedAction)
    (reason : String) (metadata : List (String × String)) : Action ApprovalStatus := do
  let state : ProjectState ← request .readState
  match findApproval state.approvals runId taskId requestedAction with
  | some existing => pure existing.status
  | none => do
    let id : String ← request .randomUUID
    let createdAt : String ← request .now
    request (.update (.pushApproval
      { id, runId, taskId, reason, requestedAction
        riskLevel := classifyApprovalRequestedActionRisk requestedAction, status := .pending
        metadata := Dict.ofList metadata, createdAt, approvedAt := none, approvedBy := none
        rejectedAt := none, rejectedBy := none, rejectionReason := none, resumedAt := none
        resumedBy := none, completedAt := none, decisionPolicyDecisionId := none
        decisionEvidenceId := none }))
    recordEvent .approvalRequested
      [("approvalRequestId", .str id), ("runId", .str runId), ("taskId", .str taskId),
        ("requestedAction", .str requestedAction.text), ("reason", .str reason),
        ("status", .str ApprovalStatus.pending.text)]
      runId
    pure .pending

/-! ### Side effects behind the dedup registry -/

/-- `dedupTtlMs`. -/
def dedupTtlMs : Int := 30 * 60 * 1000

/-- `reserveSideEffect`: whether the side effect is suppressed. -/
def reserveSideEffect (key leaseOwner nowIso : String) : Action Bool := do
  let state : ProjectState ← request .readState
  let (_, suppressedBy) ← Act.ofExcept
    (reserveDedupEntry Text.dateParse state.execution.dedupRegistry key leaseOwner nowIso dedupTtlMs)
  request (.update (.reserve key leaseOwner nowIso dedupTtlMs))
  pure suppressedBy.isSome

/-- `completeSideEffect`, with the decision that is the latest of the run's copy. -/
def completeSideEffect (key : String) (succeeded : Bool) : Action Unit := do
  let state : ProjectState ← request .readState
  let policyDecisionId := state.policyDecisions.getLast?.map ExecutionPolicyDecision.decisionId
  let nowIso : String ← request .now
  request (.update (.finalize key nowIso (if succeeded then .succeeded else .failed)
    policyDecisionId))

/-- The key of a side effect of the lifecycle: stage and type have one name. -/
def sideEffectKey (host : Host) (state : ProjectState) (runId taskId stage : String)
    (normalizedInput : String) : Except RuntimeError String :=
  buildIdempotencyKey host
    { tenantId := state.orgId, projectId := state.projectId, runId, taskId, stage, attempt := 0
      sideEffectType := stage, normalizedInput := .str normalizedInput }

namespace Runtime

variable (rt : Runtime)

/-- `new Set(approvalRequiredActions ?? ['git_push', 'pr_draft'])`. -/
def requiredApprovalActions : List ApprovalRequestedAction :=
  rt.config.approvalRequiredActions.getD [.gitPush, .prDraft]

/-- Whether an action waits for approval in this configuration. -/
def needsApproval (action : ApprovalRequestedAction) : Bool :=
  rt.config.approvalGateEnabled && rt.requiredApprovalActions.contains action

/-- `approvalBulkFileThreshold ?? 25`. -/
def bulkFileThreshold : Nat := rt.config.approvalBulkFileThreshold.getD 25

/-- The message of the task's commit. -/
def commitMessage (input : GitLifecycleInput) : String :=
  s!"feat({input.taskId}): {input.taskTitle} [run:{input.runId}]"

/-- The gates of the risky actions of a commit, one after the other: whether one of them
waits. -/
def evaluateRiskGates (input : GitLifecycleInput) (branchName commitSha : String) :
    List ApprovalRequestedAction → Action Bool
  | [] => pure false
  | action :: actions => do
    if rt.requiredApprovalActions.contains action then
      let status ← evaluateApprovalGate input.runId input.taskId action (describeRiskAction action)
        [("branchName", branchName), ("commitSha", commitSha)]
      let waiting ← evaluateRiskGates input branchName commitSha actions
      pure (status ≠ .resumed || waiting)
    else evaluateRiskGates input branchName commitSha actions

/-- The gate of the push, which is open where pushes need no approval. -/
def evaluatePushGate (input : GitLifecycleInput) (branchName commitSha : String) :
    Action ApprovalStatus :=
  if rt.needsApproval .gitPush then
    evaluateApprovalGate input.runId input.taskId .gitPush s!"Push branch {branchName} to origin"
      [("branchName", branchName), ("commitSha", commitSha)]
  else pure .resumed

/-- The push behind the dedup registry. -/
def pushOnce (input : GitLifecycleInput) (branchName commitSha : String) : Action PushStatus := do
  let state : ProjectState ← request .readState
  let key ← Act.ofExcept
    (sideEffectKey rt.host state input.runId input.taskId "git_push"
      (branchName ++ "|" ++ commitSha))
  let nowIso : String ← request .now
  if ← reserveSideEffect key input.runId nowIso then
    pure .skippedDuplicate
  else do
    PolicyDecisionRecorder.persistAndRequire
      (stepPolicyGate input.runId input.taskId s!"{input.taskId}:git_push" .gitPush
        s!"{input.runId}:{input.taskId}:git_push:{branchName}:{commitSha}"
        ["APPROVAL_GATE_PASSED"])
    request .requireValid
    let isPushed ← pushBranch input.workspaceRoot branchName
    completeSideEffect key isPushed
    pure (if isPushed then .pushed else .failed)

/-- `detectRiskyActionsFromCommit`. -/
def detectRiskyActionsFromCommit (workspaceRoot commitSha : String) :
    Action (List ApprovalRequestedAction) := do
  let lines ← readCommitNameStatus workspaceRoot commitSha
  pure (detectRiskyActions rt.bulkFileThreshold lines)

/-- What happens to a commit that was created: gates and push. The Boolean is
`isWaitingForApproval`. -/
def pushCommit (input : GitLifecycleInput) (branchName commitSha : String) :
    Action (PushStatus × Bool) := do
  let riskWaiting ←
    (if rt.config.approvalGateEnabled then do
      let sourceRiskActions ← rt.detectRiskyActionsFromCommit input.workspaceRoot commitSha
      rt.evaluateRiskGates input branchName commitSha sourceRiskActions
    else pure false)
  match ← rt.evaluatePushGate input branchName commitSha with
  | .rejected => pure (.skippedRejected, riskWaiting)
  | .pending => pure (.pendingApproval, true)
  | .approved => pure (.waitingResume, true)
  | .resumed | .completed => do
    let pushStatus ← rt.pushOnce input branchName commitSha
    pure (pushStatus, riskWaiting)

/-- The local variables of `complete` after the push. -/
structure CommitOutcome where
  commitStatus : CommitStatus
  pushStatus : PushStatus
  commitSha : String
  isWaitingForApproval : Bool

/-- Commit and push, when there are changes. -/
def commitAndPush (input : GitLifecycleInput) (branchName : String) : Action CommitOutcome := do
  let nowIso : String ← request .now
  let state : ProjectState ← request .readState
  let key ← Act.ofExcept
    (sideEffectKey rt.host state input.runId input.taskId "git_commit"
      (commitMessage input ++ "|" ++ branchName))
  if ← reserveSideEffect key input.runId nowIso then
    pure
      { commitStatus := .skippedDuplicate, pushStatus := .skippedDuplicate, commitSha := "none"
        isWaitingForApproval := false }
  else do
    PolicyDecisionRecorder.persistAndRequire
      (stepPolicyGate input.runId input.taskId s!"{input.taskId}:git_commit" .gitCommit
        (s!"{input.runId}:{input.taskId}:git_commit:" ++ commitMessage input)
        ["REPO_CHANGES_PRESENT"])
    request .requireValid
    let committed ← createCommit input.workspaceRoot (commitMessage input)
    completeSideEffect key committed.isSome
    match committed with
    | none =>
      pure
        { commitStatus := .failed, pushStatus := .skippedCommitFailed, commitSha := "none"
          isWaitingForApproval := false }
    | some commitSha => do
      let (pushStatus, isWaitingForApproval) ← rt.pushCommit input branchName commitSha
      pure { commitStatus := .created, pushStatus, commitSha, isWaitingForApproval }

/-- `prTitle`. -/
def prTitle (input : GitLifecycleInput) : String := s!"[{input.taskId}] {input.taskTitle}"

/-- `prBody`. -/
def prBody (input : GitLifecycleInput) (branchName commitSha : String) : String :=
  String.intercalate "\n"
    [s!"Task: {input.taskId}", s!"Run: {input.runId}", s!"Branch: {branchName}",
      s!"Commit: {commitSha}", "", "Automated draft PR from ai-orchestrator."]

/-- The pull request behind the dedup registry. -/
def createPrOnce (input : GitLifecycleInput) (branchName commitSha : String) :
    Action PrStatus := do
  let state : ProjectState ← request .readState
  let key ← Act.ofExcept
    (sideEffectKey rt.host state input.runId input.taskId "pr_draft"
      (branchName ++ "|" ++ prTitle input))
  let nowIso : String ← request .now
  if ← reserveSideEffect key input.runId nowIso then
    pure .skippedDuplicate
  else do
    PolicyDecisionRecorder.persistAndRequire
      (stepPolicyGate input.runId input.taskId s!"{input.taskId}:pr_draft" .prDraft
        (s!"{input.runId}:{input.taskId}:pr_draft:{branchName}:" ++ prTitle input)
        ["PUSH_SUCCESSFUL"])
    request .requireValid
    let isPrCreated ← createPullRequestDraft input.workspaceRoot branchName (prTitle input)
      (prBody input branchName commitSha)
    completeSideEffect key isPrCreated
    pure (if isPrCreated then .created else .failed)

/-- The draft pull request of a branch that was pushed; the Boolean says whether its gate
waits. -/
def draftPullRequest (input : GitLifecycleInput) (branchName commitSha : String) :
    Action (PrStatus × Bool) := do
  let gate ←
    (if rt.needsApproval .prDraft then
      evaluateApprovalGate input.runId input.taskId .prDraft
        s!"Create draft PR for branch {branchName}"
        [("branchName", branchName), ("prTitle", prTitle input)]
    else pure .resumed)
  match gate with
  | .rejected => pure (.skippedRejected, false)
  | .pending => pure (.pendingApproval, true)
  | .approved => pure (.waitingResume, true)
  | .resumed | .completed => do
    let prStatus ← rt.createPrOnce input branchName commitSha
    pure (prStatus, false)

/-- The metadata of the commit artifact. -/
def commitMetadata (input : GitLifecycleInput) (branchName : String) (outcome : CommitOutcome) :
    List (String × String) :=
  [("runId", input.runId), ("taskId", input.taskId), ("stage", "commit"),
    ("branchName", branchName), ("commitStatus", outcome.commitStatus.text),
    ("pushStatus", outcome.pushStatus.text), ("commitSha", truncateText outcome.commitSha 120),
    ("commitMessage", truncateText (commitMessage input) 250)]

/-- The metadata of the artifact of the pull request. -/
def prMetadata (input : GitLifecycleInput) (branchName commitSha : String) (prStatus : PrStatus) :
    List (String × String) :=
  [("runId", input.runId), ("taskId", input.taskId), ("stage", "pr_draft"),
    ("branchName", branchName), ("prStatus", prStatus.text),
    ("prTitle", truncateText (prTitle input) 250),
    ("prBody", truncateText (prBody input branchName commitSha) 250)]

/-- The metadata of the report that an approval is pending. -/
def approvalPendingMetadata (input : GitLifecycleInput) : List (String × String) :=
  [("runId", input.runId), ("taskId", input.taskId), ("resumeMode", "manual_run_cycle"),
    ("note", "Approve and resume by invoking the run cycle again from control plane")]

/-- Record a new artifact and add it to the run's copy. -/
def recordNew (type : ArtifactType) (title : String) (metadata : List (String × String)) :
    Action Unit := do
  let artifact ← newArtifact type title metadata
  recordAndPush artifact

/-- `recordBranchArtifact`. -/
def recordBranchArtifact (runId taskId : String) (branchName : Option String) : Action Unit :=
  recordNew .gitLifecycle s!"Git branch for {taskId}"
    [("runId", runId), ("taskId", taskId), ("stage", "branch"),
      ("branchName", branchName.getD "unknown")]

/-- The branch that `complete` works on. -/
def lifecycleBranch (input : GitLifecycleInput) : Action String :=
  match input.branchName with
  | some branchName => pure branchName
  | none => do
    let current ← currentGitBranch input.workspaceRoot
    pure (current.getD "unknown")

/-- What is recorded of the lifecycle after the push, and the pull request. -/
def finishLifecycle (input : GitLifecycleInput) (branchName : String) (outcome : CommitOutcome) :
    Action GitLifecycleStatus := do
  recordNew .gitLifecycle s!"Git commit metadata for {input.taskId}"
    (commitMetadata input branchName outcome)
  let (prStatus, prWaiting) ←
    (if outcome.pushStatus = .pushed then
      rt.draftPullRequest input branchName outcome.commitSha
    else pure (.skippedPushNotSuccessful, false))
  recordNew .gitLifecycle s!"PR draft metadata for {input.taskId}"
    (prMetadata input branchName outcome.commitSha prStatus)
  if outcome.isWaitingForApproval || prWaiting then do
    recordNew .report s!"Approval pending for {input.taskId}" (approvalPendingMetadata input)
    pure .approvalPending
  else pure .ok

/-- **`GitLifecycleCoordinator.complete`**. -/
def completeGitLifecycle (input : GitLifecycleInput) : Action GitLifecycleStatus := do
  let branchName ← lifecycleBranch input
  let hasChanges ← workspaceHasGitChanges input.workspaceRoot
  let outcome ←
    (if hasChanges then rt.commitAndPush input branchName
    else
      pure
        { commitStatus := .skippedNoChanges, pushStatus := .skippedNoChanges, commitSha := "none"
          isWaitingForApproval := false })
  rt.finishLifecycle input branchName outcome

end Runtime

end AiOrchestrator
