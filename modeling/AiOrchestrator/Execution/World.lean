import AiOrchestrator.Core.Idempotency
import AiOrchestrator.Execution.Roles
import AiOrchestrator.Lib.Prog
import AiOrchestrator.State.Store

/-!
# The world of a run

A run is a program over the operations `Op`: it reads clocks, works on its own copy of
the project state, writes to the store, calls roles and tools and runs git commands.
`Op.handle` says what each operation does to the `World`, given an `Answer`: what the
surroundings (roles, tools, git, clocks, the lock store, a failing connection) contribute.
Nothing is assumed about answers here; a result that needs some says which.

A run's copy of the state is an object that its parts share, so `World.state` is a
component of the world: a write to the store passes the copy's revision as the expected
one and sets the copy's revision to that of the result (`state.revision = result.revision`
after every `record…` of the source, and inside `save`), and an assignment to a field of
the copy is an `Update`.
-/

namespace AiOrchestrator

/-! ### Objects of an orchestrator that outlive a run -/

/-- `RunStepRecorder`. -/
structure RunStepRecorder where
  checksumByRunId : Record String
  buffer : Option (List RunStepLogEntry)
  latestRevision : Option Nat
  tenantId : String
  projectId : String

/-- `RoleRunCostTracker`. -/
structure RoleRunCostTracker where
  estimatedTokensRun : Nat
  estimatedTokensTask : Nat
  estimatedCostUsdMicro : Nat

/-- The objects that the runs of one orchestrator share. -/
structure Shared where
  recorder : RunStepRecorder
  cost : RoleRunCostTracker

/-- The objects of a new orchestrator. -/
def Shared.new : Shared where
  recorder :=
    { checksumByRunId := ∅, buffer := none, latestRevision := none
      tenantId := "default-org", projectId := "ai-orchestrator" }
  cost := { estimatedTokensRun := 0, estimatedTokensTask := 0, estimatedCostUsdMicro := 0 }

/-- What is assigned to the shared objects. -/
inductive SharedUpdate
  /-- `RunStepRecorder.startRun`. -/
  | startRun (runId tenantId projectId : String)
  /-- `RunStepRecorder.clearBuffer`. -/
  | clearBuffer
  /-- The end of `RunStepRecorder.record`. -/
  | recorded (step : RunStepLogEntry) (revision : Nat)
  /-- `RoleRunCostTracker.resetRun`. -/
  | resetRun
  /-- `RoleRunCostTracker.resetTask`. -/
  | resetTask
  /-- `RoleRunCostTracker.recordTokenUsage`, with the cost of the tokens. -/
  | tokenUsage (tokens cost : Nat)

def SharedUpdate.apply : SharedUpdate → Shared → Shared
  | .startRun runId tenantId projectId, shared =>
    { shared with
      recorder :=
        { checksumByRunId := shared.recorder.checksumByRunId.erase runId, buffer := some []
          latestRevision := none, tenantId := tenantId, projectId := projectId } }
  | .clearBuffer, shared => { shared with recorder := { shared.recorder with buffer := none } }
  | .recorded step revision, shared =>
    { shared with
      recorder := { shared.recorder with
        latestRevision := some revision
        checksumByRunId := shared.recorder.checksumByRunId.set step.runId step.checksum
        buffer := shared.recorder.buffer.map fun buffer => buffer ++ [step] } }
  | .resetRun, shared =>
    { shared with
      cost := { estimatedTokensRun := 0, estimatedTokensTask := 0, estimatedCostUsdMicro := 0 } }
  | .resetTask, shared => { shared with cost := { shared.cost with estimatedTokensTask := 0 } }
  | .tokenUsage tokens cost, shared =>
    { shared with
      cost :=
        { estimatedTokensRun := shared.cost.estimatedTokensRun + tokens
          estimatedTokensTask := shared.cost.estimatedTokensTask + tokens
          estimatedCostUsdMicro := shared.cost.estimatedCostUsdMicro + cost } }

/-! ### Assignments to the copy of the state -/

/-- `applyRepoHealthFromTestingResult`: the health of one stage. -/
def setStageHealth (health : RepoHealth) (stage : QualityStageResult) : RepoHealth :=
  let status : HealthStatus :=
    match stage.status with
    | .passing => .passing
    | .failing => .failing
  match stage.stage with
  | .test => health
  | .build => { health with build := status }
  | .lint => { health with lint := status }
  | .typecheck => { health with typecheck := status }

/-- **Updates**: what the program assigns to its copy of the state. -/
inductive Update
  /-- The run and its task become active. -/
  | select (runId taskId : String)
  | pushArtifact (artifact : ArtifactRecord)
  | pushPolicyDecision (decision : ExecutionPolicyDecision)
  | pushApproval (request : ApprovalRequest)
  | pushDecision (decision : DecisionLogItem)
  /-- `reserveDedupEntry` when it reserves. -/
  | reserve (key leaseOwner nowIso : String) (ttlMs : Int)
  /-- `finalizeDedupEntry`. -/
  | finalize (key nowIso : String) (status : DedupStatus) (policyDecisionId : Option String)
  /-- `applyRepoHealthFromTestingResult`. -/
  | repoHealth (qualityStages : Option (List QualityStageResult)) (testsPassed : Bool)
  | complete (handle : TaskHandle)
  | noteFailure (taskId : String) (failure : FailureRecord) (retryCount : Nat)
  | split (handle : TaskHandle) (plan : SplitTaskPlan)
  | block (handle : TaskHandle)
  /-- `ControlPlaneService.resumeFailure`. -/
  | resumeFailure (failureId now : String)
  /-- `ControlPlaneService.replayFromFailureCheckpoint`. -/
  | replayFailure (failureId now : String)
  /-- `state.approvals[index] = request`. -/
  | setApproval (index : Nat) (request : ApprovalRequest)

def Update.apply : Update → ProjectState → ProjectState
  | .select runId taskId, state =>
    { state with
      execution := { state.execution with
        activeRunId := some runId
        activeTaskId := some taskId } }
  | .pushArtifact artifact, state => { state with artifacts := state.artifacts ++ [artifact] }
  | .pushPolicyDecision decision, state =>
    { state with policyDecisions := state.policyDecisions ++ [decision] }
  | .pushApproval request, state => { state with approvals := state.approvals ++ [request] }
  | .pushDecision decision, state => { state with decisions := state.decisions ++ [decision] }
  | .reserve key leaseOwner nowIso ttlMs, state =>
    match reserveDedupEntry Text.dateParse state.execution.dedupRegistry key leaseOwner nowIso
        ttlMs with
    | .ok (registry, _) =>
      { state with execution := { state.execution with dedupRegistry := registry } }
    | .error _ => state
  | .finalize key nowIso status policyDecisionId, state =>
    { state with
      execution := { state.execution with
        dedupRegistry :=
          finalizeDedupEntry state.execution.dedupRegistry key nowIso status policyDecisionId } }
  | .repoHealth qualityStages testsPassed, state =>
    let health := { state.repoHealth with tests := if testsPassed then .passing else .failing }
    { state with repoHealth := (qualityStages.getD []).foldl setStageHealth health }
  | .complete handle, state => state.completeTask handle
  | .noteFailure taskId failure retryCount, state => state.noteFailure taskId failure retryCount
  | .split handle plan, state => state.splitTask handle plan
  | .block handle, state => state.blockTask handle
  | .resumeFailure failureId now, state =>
    match state.resumeFailure failureId now with
    | .ok (state, _) => state
    | .error _ => state
  | .replayFailure failureId now, state =>
    match state.replayFromFailureCheckpoint failureId now with
    | .ok (state, _) => state
    | .error _ => state
  | .setApproval index request, state =>
    { state with approvals := state.approvals.set index request }

/-- `RunStepRecorder.flushToState`: the buffered steps go to the copy of the state, whose
revision becomes the latest one that a recorded step came back with, if that is newer. -/
def flushToState (shared : Shared) (state : ProjectState) : ProjectState × Shared :=
  match shared.recorder.buffer with
  | none | some [] => (state, shared)
  | some (step :: steps) =>
    ({ state with
        execution := { state.execution with
          runStepLog := state.execution.runStepLog ++ (step :: steps) }
        revision :=
          match shared.recorder.latestRevision with
          | none => state.revision
          | some latestRevision => max state.revision latestRevision },
      { shared with
        recorder := { shared.recorder with buffer := some [], latestRevision := none } })

/-! ### Writes to the store -/

/-- A snapshot that the store committed; `whole` when it was written as a whole, by `save`
or `saveWithEvents`. -/
structure Commit where
  snapshot : ProjectState
  whole : Bool

/-- A state store: its current content, all snapshots it committed, newest first, and its
events. -/
structure Store where
  current : ProjectState
  commits : List Commit
  events : List DomainEvent

/-- The writes of a run to the store. -/
inductive StoreCall
  /-- `save` and `saveWithEvents` of the run's copy. -/
  | save (events : List DomainEvent)
  | recordEvent (event : DomainEvent)
  | recordFailure (input : RecordFailureInput)
  | recordArtifact (artifact : ArtifactRecord)
  | recordPolicyDecision (decision : ExecutionPolicyDecision)
  | recordRunStep (step : RunStepLogEntry)

/-- What a write returns besides the revision that the copy takes over. -/
def StoreCall.Result : StoreCall → Type
  | .recordFailure _ => FailureRecord × Nat
  | .recordRunStep _ => Nat
  | .save _ | .recordEvent _ | .recordArtifact _ | .recordPolicyDecision _ => Unit

/-- The store and the copy of the state after a commit. -/
def Store.commit (store : Store) (next : ProjectState) (whole : Bool) : Store :=
  { store with current := next, commits := ⟨next, whole⟩ :: store.commits }

/-- **A write**: the copy's revision is the expected one, and takes over the result's. -/
def StoreCall.apply (host : Host) (id createdAt : String) (state : ProjectState) (store : Store) :
    (call : StoreCall) → Except RuntimeError (call.Result × ProjectState × Store)
  | .save events => do
    let next ← InMemoryStateStore.commitSnapshot store.current state (some state.revision)
    let store := store.commit next true
    pure ((), { state with revision := next.revision },
      { store with events := store.events ++ events })
  | .recordEvent event => pure ((), state, { store with events := store.events ++ [event] })
  | .recordFailure input => do
    let (next, failure, retryCount) ←
      InMemoryStateStore.recordFailure store.current id createdAt input (some state.revision)
    pure ((failure, retryCount), { state with revision := next.revision }, store.commit next false)
  | .recordArtifact artifact => do
    let next ← InMemoryStateStore.recordArtifact store.current artifact (some state.revision)
    pure ((), { state with revision := next.revision }, store.commit next false)
  | .recordPolicyDecision decision => do
    let next ←
      InMemoryStateStore.recordPolicyDecision store.current decision (some state.revision)
    pure ((), { state with revision := next.revision }, store.commit next false)
  | .recordRunStep step => do
    let next ← InMemoryStateStore.recordRunStep host store.current step
    pure (next.revision, state, { store with current := next })

/-! ### The repository -/

/-- A worktree: the branch it has checked out, if any, and the commits of its `HEAD`,
newest first. -/
structure Worktree where
  branch : Option String
  head : List String

/-- The refs of a git repository and its remote, and every commit made in it with the
worktree it was made in. -/
structure Repo where
  branches : Record (List String)
  remote : Record (List String)
  worktrees : Record Worktree
  created : List (String × String)

/-- The git and GitHub commands of a run. -/
inductive GitCommand
  | statusPorcelain (root : String)
  | statusShort (root : String)
  | diff (root : String)
  | showCurrentBranch (root : String)
  | add (root : String)
  | commit (root message : String)
  | revParseHead (root : String)
  | showNameStatus (root sha : String)
  | push (root branch : String)
  | prCreate (root branch title body : String)
  | worktreePrune (root : String)
  | forEachRef (root : String)
  | worktreeAdd (root path base : String)
  | checkoutNewBranch (root branch : String)
  | resetHard (root : String)
  | clean (root : String)
  | worktreeRemove (root path : String)
  | branchDelete (root branch : String)

namespace Repo

/-- The worktree at a path. -/
def worktree (repo : Repo) (root : String) : Worktree :=
  (repo.worktrees.get? root).getD { branch := none, head := [] }

/-- `git commit` in a worktree: its branch moves to the new commit. -/
def commit (repo : Repo) (root sha : String) : Repo :=
  let worktree := repo.worktree root
  let head := sha :: worktree.head
  { repo with
    worktrees := repo.worktrees.set root { worktree with head }
    branches :=
      match worktree.branch with
      | some branch => repo.branches.set branch head
      | none => repo.branches
    created := (root, sha) :: repo.created }

/-- `git push origin branch`: the remote branch is the local one. -/
def push (repo : Repo) (branch : String) : Repo :=
  match repo.branches.get? branch with
  | some commits => { repo with remote := repo.remote.set branch commits }
  | none => repo

/-- What a command that succeeds does to the refs, where a new commit is named `sha`. -/
def run (repo : Repo) (sha : String) : GitCommand → Repo
  | .commit root _ => repo.commit root sha
  | .push _ branch => repo.push branch
  | .worktreeAdd _ path base =>
    { repo with
      worktrees := repo.worktrees.set path
        { branch := none, head := (repo.branches.get? base).getD [] } }
  | .checkoutNewBranch root branch =>
    let head := (repo.worktree root).head
    { repo with
      worktrees := repo.worktrees.set root { branch := some branch, head }
      branches := repo.branches.set branch head }
  | .worktreeRemove _ path => { repo with worktrees := repo.worktrees.erase path }
  | .branchDelete _ branch => { repo with branches := repo.branches.erase branch }
  | .statusPorcelain _ | .statusShort _ | .diff _ | .showCurrentBranch _ | .add _
  | .revParseHead _ | .showNameStatus _ _ | .prCreate _ _ _ _ | .worktreePrune _ | .forEachRef _
  | .resetHard _ | .clean _ => repo

/-- What a command prints, where nothing in the refs decides it `text`. -/
def stdout (repo : Repo) (text : String) : GitCommand → String
  | .revParseHead root => (repo.worktree root).head.headD text
  | _ => text

end Repo

/-! ### Operations -/

/-- **The world**: a run's copy of the state, the objects of its orchestrator, the store
and the repository. `executed` lists the ids of the tasks that an executing role was
called for, newest first; `heldSince` are the snapshots that were committed when the run
acquired its lease. -/
structure World where
  state : ProjectState
  shared : Shared
  store : Store
  repo : Repo
  executed : List String
  heldSince : List Commit

/-- **Operations** of a run. -/
inductive Op
  /-- `new Date().toISOString()`. -/
  | now
  /-- `Date.now()`. -/
  | dateNow
  /-- `crypto.randomUUID()`. -/
  | randomUUID
  /-- `abortSignal.aborted`. -/
  | aborted
  /-- The copy becomes the store's content. -/
  | load
  /-- The copy's revision alone becomes that of the store's content. -/
  | loadRevision
  /-- The tenant and the project of the store's content. -/
  | loadScope
  | getPolicyDecision (query : PolicyDecisionQuery)
  | write (call : StoreCall)
  | acquireRunLease
  | requireValid
  | release
  | readState
  /-- The state in the request of the program's task manager, when it is executed: the copy. -/
  | selectionState
  | update (u : Update)
  | readShared
  /-- The totals, as `enforceBudgets` compares them. -/
  | readCost
  | updateShared (u : SharedUpdate)
  | flush
  | executeRole (name : AgentRoleName) (request : RoleRequest) (context : RoleExecutionContext)
  | executeRoleStep (name : AgentRoleName) (request : RoleRequest)
      (context : RoleExecutionContext) (observations : List RoleObservation)
  | validateRole (name : AgentRoleName) (response : RoleResponse name)
  | executeTool (request : ToolCallRequest) (context : RoleExecutionContext)
  /-- `mkdtemp`: a new directory whose path begins as given. -/
  | mkdtemp (start : String)
  | git (command : GitCommand)

namespace Op

/-- What an operation returns. -/
def Result : Op → Type
  | .now | .randomUUID | .mkdtemp _ | .git _ => String
  | .dateNow => Nat
  | .aborted | .acquireRunLease => Bool
  | .loadScope => String × String
  | .getPolicyDecision _ => Option ExecutionPolicyDecision
  | .write call => call.Result
  | .readState | .selectionState => ProjectState
  | .readShared => Shared
  | .readCost => RoleRunCostTracker
  | .executeRole name _ _ => RoleResponse name
  | .executeRoleStep name _ _ _ => RoleStepResult name
  | .executeTool _ _ => UnknownValue
  | .load | .loadRevision | .requireValid | .release | .update _ | .updateShared _ | .flush
  | .validateRole _ _ => Unit

/-- What an operation answers: its result or the error it throws. -/
abbrev Ans (o : Op) : Type := Except RuntimeError o.Result

end Op

/-- **Answers**: what the surroundings contribute to one operation. -/
structure Answer where
  /-- The error that the operation fails with, if it can fail. -/
  fault : Option RuntimeError
  iso : String
  millis : Nat
  uuid : String
  flag : Bool
  text : String
  tool : UnknownValue
  response : (name : AgentRoleName) → RoleResponse name
  step : (name : AgentRoleName) → RoleStepResult name

namespace Answer

/-- An operation that the answer may let fail. -/
def fallible {α : Type} (answer : Answer) (w : World) (success : Except RuntimeError α × World) :
    Except RuntimeError α × World :=
  match answer.fault with
  | some error => (.error error, w)
  | none => success

end Answer

namespace World

/-- The task of a request to an executing role is listed. -/
def markExecuted (w : World) (request : RoleRequest) : World :=
  match request.input with
  | .execute task _ => { w with executed := task.id :: w.executed }
  | _ => w

end World

/-- **What an operation does**, under an answer. -/
def Op.handle (host : Host) (answer : Answer) : (o : Op) → World → o.Ans × World
  | .now, w => (.ok answer.iso, w)
  | .dateNow, w => (.ok answer.millis, w)
  | .randomUUID, w => (.ok answer.uuid, w)
  | .aborted, w => (.ok answer.flag, w)
  | .load, w => answer.fallible w (.ok (), { w with state := w.store.current })
  | .loadRevision, w =>
    answer.fallible w (.ok (), { w with
      state := { w.state with revision := w.store.current.revision } })
  | .loadScope, w =>
    answer.fallible w (.ok (w.store.current.orgId, w.store.current.projectId), w)
  | .getPolicyDecision query, w =>
    answer.fallible w (.ok (InMemoryStateStore.getPolicyDecision w.store.current query), w)
  | .write call, w =>
    answer.fallible w <|
      match call.apply host answer.uuid answer.iso w.state w.store with
      | .ok (result, state, store) => (.ok result, { w with state, store })
      | .error error => (.error error, w)
  | .acquireRunLease, w =>
    answer.fallible w (.ok answer.flag, { w with heldSince := w.store.commits })
  | .requireValid, w => answer.fallible w (.ok (), w)
  | .release, w => answer.fallible w (.ok (), w)
  | .readState, w | .selectionState, w => (.ok w.state, w)
  | .update u, w => (.ok (), { w with state := u.apply w.state })
  | .readShared, w => (.ok w.shared, w)
  | .readCost, w => (.ok w.shared.cost, w)
  | .updateShared u, w => (.ok (), { w with shared := u.apply w.shared })
  | .flush, w =>
    let (state, shared) := flushToState w.shared w.state
    (.ok (), { w with state, shared })
  | .executeRole name request _, w =>
    let w := w.markExecuted request
    answer.fallible w (.ok (answer.response name), w)
  | .executeRoleStep name request _ _, w =>
    let w := w.markExecuted request
    answer.fallible w (.ok (answer.step name), w)
  | .validateRole _ _, w => answer.fallible w (.ok (), w)
  | .executeTool _ _, w => answer.fallible w (.ok answer.tool, w)
  | .mkdtemp start, w => answer.fallible w (.ok (start ++ answer.text), w)
  | .git command, w =>
    answer.fallible w (.ok (w.repo.stdout answer.text command),
      { w with repo := w.repo.run answer.text command })

/-- Programs of a run. -/
abbrev Action := Act RuntimeError Op Op.Ans

/-- Perform an operation and go on with its result or its error. -/
def request (o : Op) : Action o.Result := ExceptT.mk (Prog.perform o)

end AiOrchestrator
