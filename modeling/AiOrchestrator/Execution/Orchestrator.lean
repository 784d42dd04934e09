import AiOrchestrator.Execution.TaskRunner

/-!
# Run cycles

`packages/execution/src/workspace-manager.ts`,
`packages/execution/src/workspace/workspace-run-coordinator.ts` and
`packages/execution/src/orchestrator.ts`: a cycle loads the state, acquires the lease,
selects a task and runs it in a workspace that is allocated before and cleaned up after.
The heartbeat of the lease has no operation of its own: a lease that is lost shows in the
answers to `requireValid` and `aborted`.
-/

namespace AiOrchestrator

/-! ### Workspaces -/

/-- `ManagedWorkspace`; a workspace without a branch is the static one, which is neither
rolled back nor cleaned up. -/
structure ManagedWorkspace where
  rootPath : String
  branchName : Option String
  initialDiff : String

/-- `sanitizeScope`. -/
def sanitizeScope (value : String) : Except RuntimeError String :=
  let trimmed := Text.trim value
  if trimmed = "" then
    .error { cls := .workspaceManager, message := "Tenant/project/run scope must be non-empty" }
  else
    .ok (String.ofList (trimmed.toList.map fun c =>
      if c.isAlphanum || c = '_' || c = '-' then c else '_'))

/-- `Number.parseInt(text, 10)`, where it is a number. -/
def parseInt (text : String) : Option Int :=
  let chars := (text.toList.dropWhile Text.isSpace)
  let (sign, digits) : Int × List Char :=
    match chars with
    | '-' :: rest => (-1, rest)
    | '+' :: rest => (1, rest)
    | rest => (1, rest)
  let number := digits.takeWhile Char.isDigit
  if number = [] then none
  else some (sign * (number.foldl (fun n c => 10 * n + (c.toNat - '0'.toNat)) 0 : Nat))

/-- The branches of a ref listing that are older than the time to live. -/
def staleBranches (nowSeconds ttlSeconds : Int) (stdout : String) : List String :=
  let lines := (Text.splitOnChar '\n' (Text.trim stdout)).filter fun line => !Text.isBlank line
  lines.filterMap fun line =>
    match Text.splitOnChar '\t' line with
    | [] => none
    | name :: rest =>
      match parseInt (rest.headD "0") with
      | none => none
      | some createdAtSeconds =>
        if name ≠ "" ∧ 0 < createdAtSeconds ∧ ttlSeconds ≤ nowSeconds - createdAtSeconds then
          some name
        else none

namespace Runtime

variable (rt : Runtime)

/-- `cleanupStaleWorktreesAndBranches`. -/
def cleanupStaleWorktreesAndBranches : Action Unit := do
  let _ ← tryGit (.worktreePrune rt.config.repoRoot)
  let now : Nat ← request .dateNow
  let refs ← tryGit (.forEachRef rt.config.repoRoot)
  let ttlSeconds := rt.config.workspaceBranchTtlHours * 60 * 60
  Act.forEach
    (fun branchName => do
      let _ ← tryGit (.branchDelete rt.config.repoRoot branchName))
    (staleBranches (now / 1000 : Nat) ttlSeconds (refs.getD ""))

/-- `currentBranch` of the repository. -/
def currentBranch : Action String := do
  let stdout : String ← request (.git (.showCurrentBranch rt.config.repoRoot))
  let branch := Text.trim stdout
  if branch = "" then
    throw { cls := .workspaceManager, message := "Unable to resolve current git branch" }
  else pure branch

/-- `captureWorkspaceDiff`. -/
def captureWorkspaceDiff (root : String) : Action String := do
  let status : String ← request (.git (.statusShort root))
  let diff : String ← request (.git (.diff root))
  pure (String.intercalate "\n\n" ([Text.trim status, Text.trim diff].filter (· ≠ "")))

/-- The `try` block of `GitWorktreeWorkspaceManager.allocate`. -/
def addWorktree (workspaceRoot branchName : String) : Action ManagedWorkspace := do
  rt.cleanupStaleWorktreesAndBranches
  let baseBranch ← rt.currentBranch
  let _ ← request (.git (.worktreeAdd rt.config.repoRoot workspaceRoot baseBranch))
  let _ ← request (.git (.checkoutNewBranch workspaceRoot branchName))
  let initialDiff ← captureWorkspaceDiff workspaceRoot
  pure { rootPath := workspaceRoot, branchName := some branchName, initialDiff }

/-- **`WorkspaceManager.allocate`**. -/
def allocateWorkspace (runId tenantId projectId : String) : Action ManagedWorkspace :=
  match rt.config.workspaceManagerMode with
  | .static => pure { rootPath := rt.config.repoRoot, branchName := none, initialDiff := "" }
  | .gitWorktree => do
    let tenant ← Act.ofExcept (sanitizeScope tenantId)
    let project ← Act.ofExcept (sanitizeScope projectId)
    let run ← Act.ofExcept (sanitizeScope runId)
    let workspaceRoot : String ← request
      (.mkdtemp (rt.config.tmpdir ++ s!"/ai-orchestrator-{tenant}-{project}-{run}-"))
    let timestamp : Nat ← request .dateNow
    let branchName := s!"orchestrator/run-{timestamp}-{runId}"
    Act.catching (rt.addWorktree workspaceRoot branchName) fun _ =>
      throw
        { cls := .workspaceManager, message := "Unable to allocate git worktree workspace" }

/-- `workspace.rollback`. -/
def rollbackWorkspace (workspace : ManagedWorkspace) : Action Unit :=
  match workspace.branchName with
  | none => pure ()
  | some _ => do
    let _ ← request (.git (.resetHard workspace.rootPath))
    let _ ← request (.git (.clean workspace.rootPath))

/-- `workspace.cleanup`: the worktree is removed, and its branch deleted whether or not that
worked. -/
def cleanupWorkspace (workspace : ManagedWorkspace) : Action Unit :=
  match workspace.branchName with
  | none => pure ()
  | some branchName =>
    Act.finallyDo
      (do
        let _ ← request (.git (.worktreeRemove rt.config.repoRoot workspace.rootPath)))
      fun _ => do
        let _ ← tryGit (.branchDelete rt.config.repoRoot branchName)

/-- **`WorkspaceRunCoordinator.run`**, executing `TaskRunner.run`. -/
def runInWorkspace (handle : TaskHandle) (runId : String) : Action RunCycleResult := do
  let state : ProjectState ← request .readState
  let workspace ← rt.allocateWorkspace runId state.orgId state.projectId
  recordNew .report s!"Workspace initialized for {handle.task.id}"
    [("runId", runId), ("taskId", handle.task.id), ("workspaceRoot", workspace.rootPath),
      ("hasInitialDiff", if workspace.initialDiff ≠ "" then "true" else "false")]
  recordBranchArtifact runId handle.task.id (presentText workspace.branchName)
  Act.finallyDo
    (Act.catching
      (rt.runTask
        { handle, runId, workspaceRoot := workspace.rootPath
          branchName := presentText workspace.branchName })
      fun error => do
        Act.ignoring (rollbackWorkspace workspace)
        throw error)
    fun _ => Act.ignoring (rt.cleanupWorkspace workspace)

/-! ### Cycles -/

/-- `RunCycleOptions`. -/
structure RunCycleOptions where
  forcedTaskId : Option String := none

/-- `selectNextTask` of the orchestrator: the task manager's choice, and then the revision of
a fresh load for the run's copy. -/
def selectTask (runId : String) : Action (Option TaskHandle) := do
  let state : ProjectState ← request .readState
  let context := makeContext .taskManager runId state rt.config.repoRoot none false
  let req : RoleRequest :=
    { role := .taskManager, objective := "Select next executable task", input := .select state
      acceptanceCriteria := ["Return a single executable task or null"] }
  let taskSelection ← rt.executeRole (rt.taskManager req context) req context
  request .loadRevision
  let entry : Option (String × BacklogTask) := taskSelection.output
  pure (entry.map fun (key, task) => { task, key })

/-- `selectForcedTask`. -/
def selectForcedTask (state : ProjectState) (taskId : String) : Option TaskHandle :=
  match state.backlog.tasks.get? taskId with
  | none => none
  | some task =>
    if isExecutableTask state.execution.completedTaskIds state.execution.blockedTaskIds task then
      some { task, key := taskId }
    else none

/-- The cycle under its lease. -/
def runUnderLease (runId : String) (options : RunCycleOptions) : Action RunCycleResult := do
  request .requireValid
  let state : ProjectState ← request .readState
  Act.ofExcept (assertProjectState state)
  match shouldStopRun state rt.config.workflow with
  | some reason => do
    let freshId : String ← request .randomUUID
    pure
      { runId := state.execution.activeRunId.getD freshId, status := .idle
        stopReason := some reason }
  | none => do
    let forced := presentText options.forcedTaskId
    let task ←
      (match forced with
      | some taskId => pure (selectForcedTask state taskId)
      | none => rt.selectTask runId)
    match task with
    | none =>
      pure
        { runId, status := .idle
          stopReason :=
            some (if forced.isSome then "forced_task_not_executable" else "no_executable_task") }
    | some handle => rt.runInWorkspace handle runId

/-- **`Orchestrator.runCycle`**. -/
def runCycle (options : RunCycleOptions) : Action RunCycleResult := do
  request (.updateShared .resetRun)
  let runId : String ← request .randomUUID
  request .load
  let acquired : Bool ← request .acquireRunLease
  if !acquired then
    pure { runId, status := .idle, stopReason := some "run_lock_unavailable" }
  else
    Act.finallyDo (rt.runUnderLease runId options) fun _ => Act.ignoring (request .release)

/-- **`Orchestrator.runSingleTask`**. -/
def runSingleTask (taskId : String) : Action RunCycleResult := do
  request .load
  let state : ProjectState ← request .readState
  Act.ofExcept (assertProjectState state)
  match state.backlog.tasks.get? taskId with
  | none => throw (.workflowPolicy "Requested task does not exist" (some "invalid_task_id"))
  | some task =>
    if task.status = .done ∨ taskId ∈ state.execution.completedTaskIds then
      throw (.workflowPolicy "Requested task is already completed" (some "task_done"))
    else if task.status = .blocked ∨ taskId ∈ state.execution.blockedTaskIds then
      throw (.workflowPolicy "Requested task is blocked" (some "task_blocked"))
    else if !isExecutableTask state.execution.completedTaskIds state.execution.blockedTaskIds
        task then
      throw (.workflowPolicy "Requested task is not executable" (some "task_not_executable"))
    else rt.runCycle { forcedTaskId := some taskId }

end Runtime

end AiOrchestrator
