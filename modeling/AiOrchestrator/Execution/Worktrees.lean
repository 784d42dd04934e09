import AiOrchestrator.Execution.Orchestrator
import AiOrchestrator.Lib.Interleave

/-!
# Worktrees

`GitWorktreeWorkspaceManager` (`packages/execution/src/workspace-manager.ts`): any number of calls of
`allocate` and of `cleanup`, by any managers of one process, on one repository. A `session` is one call of
`allocate` and, if it answers with a workspace, the call of that workspace's `cleanup`; a later call finds
`isCleaned` set and does nothing. It is a program over what it awaits, and `Pool` interleaves the
sessions: between two operations of one, others may happen.

The server plays git, the file system and `worktreeMutex`. A git command inside `allocate` may fail, before
or after it has done its work: a hook that exits with an error makes `git worktree add` and `git checkout`
fail in the end. `git branch -D` refuses a branch that is checked out, in the main worktree or in a
registered one, `git worktree prune` drops registrations whose directory is gone, and `mkdtemp` does not
draw a name twice. Owners and phases are not part of the repository: they record which session has made a
worktree or a branch, and how far it is.
-/

namespace AiOrchestrator

namespace Worktrees

/-! ### What a session awaits -/

structure WorkspaceAllocationInput where
  runId : String
  tenantId : String
  projectId : String

structure GitWorktreeWorkspaceManager where
  /-- `path.resolve(repoRoot)`, the key of the mutex; two managers may spell one repository differently. -/
  repoRoot : String
  branchTtlHours : Int

inductive Op
  /-- The call of `allocate` comes in. -/
  | called
  /-- The call of `allocate` settles, with a workspace or an error. -/
  | settled (workspace : Option ManagedWorkspace)
  /-- The call of `cleanup` comes in. -/
  | cleanupCalled
  /-- The call of `cleanup` settles. -/
  | cleaned
  | mkdtemp (template : String)
  | dateNow
  /-- `worktreeMutex.runExclusive` starts its body. -/
  | enter (repoRoot : String)
  /-- It has left its body. -/
  | leave (repoRoot : String)
  /-- `git worktree prune --verbose --expire=..`. -/
  | worktreePrune
  /-- `git for-each-ref .. refs/heads/orchestrator/run-*`. -/
  | forEachRef
  /-- `git branch -D` on a stale branch. -/
  | deleteStale (branch : String)
  /-- `git branch --show-current`. -/
  | showCurrentBranch
  /-- `git worktree add --detach`. -/
  | worktreeAdd (root base : String)
  /-- `git checkout -b`, in the worktree. -/
  | checkoutNewBranch (root branch : String)
  | statusShort (root : String)
  | diff (root : String)
  /-- `rm(root, { recursive: true, force: true })`. -/
  | rm (root : String)
  /-- `git worktree remove --force`. -/
  | worktreeRemove (root : String)
  /-- `git branch -D` on the branch of a workspace. -/
  | branchDelete (branch : String)

/-- What an operation resolves to. -/
@[reducible] def Op.Res : Op → Type
  | .mkdtemp _ | .forEachRef | .showCurrentBranch | .statusShort _ | .diff _ => String
  | .dateNow => Nat
  | .called | .settled _ | .cleanupCalled | .cleaned | .enter _ | .leave _ | .worktreePrune
  | .deleteStale _ | .worktreeAdd _ _ | .checkoutNewBranch _ _ | .rm _ | .worktreeRemove _
  | .branchDelete _ => Unit

abbrev Call (α : Type) := Act RuntimeError Op (fun o => Except RuntimeError o.Res) α

def request (o : Op) : Call o.Res := Act.ask o

/-- `worktreeMutex.runExclusive`. -/
def runExclusive {α : Type} (repoRoot : String) (body : Call α) : Call α := do
  request (.enter repoRoot)
  Act.finallyDo body fun _ => request (.leave repoRoot)

/-- `cleanupStaleWorktreesAndBranches`. -/
def cleanupStaleWorktreesAndBranches (branchTtlHours : Int) : Call Unit := do
  Act.ignoring (request .worktreePrune)
  let now : Nat ← request .dateNow
  let stdout ← Act.catching (request .forEachRef) fun _ => pure ""
  Act.forEach (fun branchName => Act.ignoring (request (.deleteStale branchName)))
    (staleBranches (now / 1000 : Nat) (branchTtlHours * 60 * 60) stdout)

/-- `currentBranch`. -/
def currentBranch : Call String := do
  let stdout : String ← request .showCurrentBranch
  let branch := Text.trim stdout
  if branch = "" then
    throw { cls := .workspaceManager, message := "Unable to resolve current git branch" }
  else pure branch

/-- `captureWorkspaceDiff`. The two commands only read. -/
def captureWorkspaceDiff (root : String) : Call String := do
  let status : String ← request (.statusShort root)
  let diff : String ← request (.diff root)
  pure (String.intercalate "\n\n" ([Text.trim status, Text.trim diff].filter (· ≠ "")))

namespace GitWorktreeWorkspaceManager

variable (manager : GitWorktreeWorkspaceManager)

/-- The `try` block of `allocate`. -/
def addWorktree (workspaceRoot branchName : String) : Call ManagedWorkspace := do
  runExclusive manager.repoRoot do
    cleanupStaleWorktreesAndBranches manager.branchTtlHours
    let baseBranch ← currentBranch
    request (.worktreeAdd workspaceRoot baseBranch)
  request (.checkoutNewBranch workspaceRoot branchName)
  let initialDiff ← captureWorkspaceDiff workspaceRoot
  pure { rootPath := workspaceRoot, branchName := some branchName, initialDiff }

/-- **`allocate`**. -/
def allocate (input : WorkspaceAllocationInput) : Call ManagedWorkspace := do
  let tenant ← Act.ofExcept (sanitizeScope input.tenantId)
  let project ← Act.ofExcept (sanitizeScope input.projectId)
  let run ← Act.ofExcept (sanitizeScope input.runId)
  let workspaceRoot : String ← request (.mkdtemp s!"ai-orchestrator-{tenant}-{project}-{run}-")
  let timestamp : Nat ← request .dateNow
  let branchName := s!"orchestrator/run-{timestamp}-{input.runId}"
  Act.catching (manager.addWorktree workspaceRoot branchName) fun _ => do
    Act.ignoring (request (.rm workspaceRoot))
    throw { cls := .workspaceManager, message := "Unable to allocate git worktree workspace" }

/-- **`cleanup`** of a workspace, where `isCleaned` is not set. -/
def cleanup (workspaceRoot branchName : String) : Call Unit :=
  runExclusive manager.repoRoot do
    Act.finallyDo (request (.worktreeRemove workspaceRoot)) fun _ => do
      request (.rm workspaceRoot)
      Act.ignoring (request (.branchDelete branchName))

/-- **A session**: a call of `allocate`, and a call of `cleanup`. -/
def session (input : WorkspaceAllocationInput) : Call Unit := do
  request .called
  match ← Act.attempt (manager.allocate input) with
  | .error _ => request (.settled none)
  | .ok workspace =>
    request (.settled (some workspace))
    request .cleanupCalled
    Act.ignoring (manager.cleanup workspace.rootPath (workspace.branchName.getD ""))
    request .cleaned

end GitWorktreeWorkspaceManager

/-! ### The repository -/

/-- A registered worktree, with the branch that it has checked out; none when detached. -/
structure Worktree (ι : Type) where
  branch : Option String
  owner : Option ι
deriving DecidableEq

structure Branch (ι : Type) where
  /-- `%(creatordate:unix)`. -/
  createdAt : Int
  owner : Option ι
deriving DecidableEq

/-- How far a session is. -/
inductive Phase
  | notCalled
  /-- A call is in progress. -/
  | busy
  /-- `allocate` has answered with the workspace, and `cleanup` has not been called. -/
  | inUse (workspace : ManagedWorkspace)
  /-- `allocate` has failed, or `cleanup` is done. -/
  | finished

def Phase.isBusy : Phase → Bool
  | .busy => true
  | .notCalled | .inUse _ | .finished => false

def Phase.isInUse : Phase → Bool
  | .inUse _ => true
  | .notCalled | .busy | .finished => false

/-- **The repository**, the directories, and the mutex of the process. -/
structure Repository (ι : Type) where
  /-- The branch of the main worktree; none when detached. -/
  head : Option String
  worktrees : Dict String (Worktree ι)
  branches : Dict String (Branch ι)
  dirs : List String
  /-- The names that `mkdtemp` has drawn. -/
  drawn : Dict String ι
  /-- The session whose body the mutex runs, by key. -/
  holder : String → Option ι
  phase : ι → Phase

/-- What the world is free to choose at an operation. -/
structure Choice where
  fails : Bool := false
  /-- A command that fails has done its work. -/
  late : Bool := false
  /-- The characters that `mkdtemp` draws. -/
  suffix : String := ""
  now : Nat := 0
  /-- The registrations that are old enough for `prune`. -/
  expired : List String := []
  createdAt : Int := 0
  stdout : String := ""

namespace Repository

variable {ι : Type}

/-- A branch that is checked out. -/
def isCheckedOut (s : Repository ι) (name : String) : Bool :=
  s.head = some name || s.worktrees.values.any (·.branch = some name)

/-- The listing of the branches of runs. -/
def refs (s : Repository ι) : String :=
  String.intercalate "\n" ((s.branches.entries.filter fun entry =>
    "orchestrator/run-".toList.isPrefixOf entry.1.toList).map fun entry =>
      s!"{entry.1}\t{entry.2.createdAt}")

/-- `git branch --show-current`. -/
def currentBranchLine (s : Repository ι) : String :=
  match s.head with
  | none => ""
  | some name => name ++ "\n"

/-- Without the registrations whose directories are gone, among those that are old enough. -/
def prune (s : Repository ι) (expired : List String) : Repository ι :=
  { s with worktrees := (expired.filter fun root => root ∉ s.dirs).foldl Dict.erase s.worktrees }

def makeDir (s : Repository ι) (root : String) : Repository ι :=
  { s with dirs := root :: s.dirs }

def removeDir (s : Repository ι) (root : String) : Repository ι :=
  { s with dirs := s.dirs.filter (· ≠ root) }

def setWorktree (s : Repository ι) (root : String) (worktree : Worktree ι) : Repository ι :=
  { s with worktrees := s.worktrees.set root worktree }

def removeWorktree (s : Repository ι) (root : String) : Repository ι :=
  { s with worktrees := s.worktrees.erase root }

def setBranch (s : Repository ι) (name : String) (branch : Branch ι) : Repository ι :=
  { s with branches := s.branches.set name branch }

def removeBranch (s : Repository ι) (name : String) : Repository ι :=
  { s with branches := s.branches.erase name }

def setDrawn (s : Repository ι) (root : String) (i : ι) : Repository ι :=
  { s with drawn := s.drawn.set root i }

def setHolder (s : Repository ι) (repoRoot : String) (holder : Option ι) : Repository ι :=
  { s with holder := Function.update s.holder repoRoot holder }

variable [DecidableEq ι]

def setPhase (s : Repository ι) (i : ι) (phase : Phase) : Repository ι :=
  { s with phase := Function.update s.phase i phase }

end Repository

/-- What a command that fails is rejected with. -/
def commandFailed : RuntimeError := .plain "Command failed"

/-- A command does its work. -/
def Choice.works (choice : Choice) : Bool := !choice.fails || choice.late

/-- The answer of a command that has done its work. -/
def Choice.answer {α : Type} (choice : Choice) (result : α) : Except RuntimeError α :=
  if choice.fails then .error commandFailed else .ok result

variable {ι : Type} [DecidableEq ι]

/-- **The answers** of git and the file system; none while a session waits for the mutex, or where a name
would be drawn a second time. -/
def serve (i : ι) (choice : Choice) :
    (o : Op) → Repository ι → Option (Except RuntimeError o.Res × Repository ι)
  | .called, s => some (.ok (), s.setPhase i .busy)
  | .settled (some workspace), s => some (.ok (), s.setPhase i (.inUse workspace))
  | .settled none, s => some (.ok (), s.setPhase i .finished)
  | .cleanupCalled, s => some (.ok (), s.setPhase i .busy)
  | .cleaned, s => some (.ok (), s.setPhase i .finished)
  | .mkdtemp template, s =>
    let root := template ++ choice.suffix
    if choice.fails then some (.error commandFailed, s)
    else if root ∈ s.dirs || s.drawn.contains root then none
    else some (.ok root, (s.setDrawn root i).makeDir root)
  | .dateNow, s => some (.ok choice.now, s)
  | .enter repoRoot, s =>
    if (s.holder repoRoot).isNone then some (.ok (), s.setHolder repoRoot (some i)) else none
  | .leave repoRoot, s => some (.ok (), s.setHolder repoRoot none)
  | .worktreePrune, s =>
    if choice.works then some (choice.answer (), s.prune choice.expired)
    else some (.error commandFailed, s)
  | .forEachRef, s => if choice.fails then some (.error commandFailed, s) else some (.ok s.refs, s)
  | .deleteStale name, s =>
    if !choice.works || !s.branches.contains name || s.isCheckedOut name then
      some (.error commandFailed, s)
    else some (choice.answer (), s.removeBranch name)
  | .showCurrentBranch, s =>
    if choice.fails then some (.error commandFailed, s) else some (.ok s.currentBranchLine, s)
  | .worktreeAdd root base, s =>
    if !choice.works || s.worktrees.contains root || !s.branches.contains base then
      some (.error commandFailed, s)
    else
      some (choice.answer (), (s.makeDir root).setWorktree root { branch := none, owner := some i })
  | .checkoutNewBranch root name, s =>
    match s.worktrees.get? root with
    | none => some (.error commandFailed, s)
    | some worktree =>
      if !choice.works || s.branches.contains name then some (.error commandFailed, s)
      else
        some (choice.answer (),
          (s.setBranch name { createdAt := choice.createdAt, owner := some i }).setWorktree root
            { worktree with branch := some name })
  | .statusShort _, s | .diff _, s =>
    if choice.fails then some (.error commandFailed, s) else some (.ok choice.stdout, s)
  | .rm root, s => some (.ok (), s.removeDir root)
  | .worktreeRemove root, s =>
    if s.worktrees.contains root then some (.ok (), (s.removeWorktree root).removeDir root)
    else some (.error commandFailed, s)
  | .branchDelete name, s =>
    if !s.branches.contains name || s.isCheckedOut name then some (.error commandFailed, s)
    else some (.ok (), s.removeBranch name)

/-- **Git, the file system and the mutex**, as a server of the sessions. -/
def server (ι : Type) [DecidableEq ι] :
    Server ι Op (fun o => Except RuntimeError o.Res) (Repository ι) Choice Empty where
  serve := serve
  drift := fun e _ => e.elim

/-- Sessions before their first operation. -/
def start (managers : ι → GitWorktreeWorkspaceManager) (inputs : ι → WorkspaceAllocationInput)
    (s : Repository ι) :
    Pool ι Op (fun o => Except RuntimeError o.Res) (Except RuntimeError Unit) (Repository ι) where
  threads i := ((managers i).session (inputs i)).run
  state := s

end Worktrees

end AiOrchestrator
