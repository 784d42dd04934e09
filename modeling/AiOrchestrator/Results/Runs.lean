import AiOrchestrator.Execution.Gates
import AiOrchestrator.Results.Backlog

/-!
# Runs of a task

What holds of every run of a task, whatever its roles, the platform and git answer and
whatever other clients do to the store meanwhile. A run saves a task as done only through
the gates, where the listings of its changed files are read well (`done_through_gates`).
-/

namespace AiOrchestrator

namespace Runtime

/-! ### A small orchestrator -/

/-- A platform whose texts are short. -/
def sampleHost : Host where
  sha256Hex := fun _ => "digest"
  localeCompare := fun a b => compare a b
  stringify := fun _ => "{}"
  tokenCost := fun _ _ => 0

/-- A configuration with worktrees and without budgets and approvals. -/
def sampleConfig : RuntimeConfig where
  workflow := { maxStepsPerRun := 20, maxRetriesPerTask := 2 }
  maxRoleStepsPerTask := none
  maxRoleWallTimeMs := none
  approvalGateEnabled := false
  approvalRequiredActions := none
  approvalBulkFileThreshold := none
  workspaceManagerMode := .gitWorktree
  workspaceBranchTtlHours := 24
  persistToolEvidence := false
  model := "model"
  fallbackModel := none
  roleModels := ∅
  tokenBudgetPerTask := none
  tokenBudgetPerRun := none
  maxRunCostUsdMicro := none
  modelCostPer1kTokensUsdMicro := ∅
  repoRoot := "/repo"
  tmpdir := "/tmp"

/-- An orchestrator whose roles work in one go. -/
def sampleRuntime : Runtime where
  host := sampleHost
  config := sampleConfig
  hasSteps := fun _ => false
  replacesTaskManager := false

/-- Outputs with which a task is completed. -/
def sampleOutput : (name : AgentRoleName) → name.Output
  | .taskManager => none
  | .promptEngineer =>
    { id := "prompt-1", role := .coder, systemPrompt := "Write code", taskPrompt := "Read the input"
      contextSummary := "A parser", constraints := [], outputSchema := .null }
  | .coder =>
    { changed := true, summary := "The grammar is read", changedFiles := ["parser.ts"]
      evidence := [.null], noOpReason := none }
  | .architect => { findings := [], riskSummary := "None" }
  | .planner =>
    { milestoneId := "M-1", tasks := ∅, summary := "One task", dependencyEdges := [.null]
      assumptions := ["A grammar"], batches := [.null] }
  | .docsWriter => { summary := "The grammar", markdown := "# Grammar" }
  | .reviewer => { approved := true, blockingIssues := [] }
  | .tester => { passed := true, evidence := [], failures := [], qualityStages := none }
  | .bootstrapAnalyst | .releaseAuditor | .stateSteward | .integrationManager => ()

/-- Answers without a failure, where git prints the listing of the changed files and otherwise
nothing. -/
def sampleAnswer (listing : String) (o : Op) (w : World) : Answer where
  fault := none
  iso := "2024-01-01T00:00:00.000Z"
  millis := 0
  uuid := "id-" ++ toString w.store.current.execution.runStepLog.length
  flag := false
  text :=
    match o with
    | .git (.statusPorcelain _) => listing
    | _ => ""
  tool := .undefined
  response := fun name =>
    { role := name, summary := "Done", output := sampleOutput name, payload := .null
      confidence := 1 }
  step := fun name => .finalOutput
    { role := name, summary := "Done", output := sampleOutput name, payload := .null
      confidence := 1 }

/-- A run's copy and a store with the same state, and an empty repository. -/
def sampleWorld (state : ProjectState) : World where
  state := state
  shared := Shared.new
  store := { current := state, commits := [], events := [] }
  repo := { branches := ∅, remote := ∅, worktrees := ∅, created := [] }
  executed := []
  heldSince := []

/-- The run of the one task of a small project. -/
def sampleRun : TaskRun where
  handle := ProjectState.oneTaskHandle
  runId := "r"
  workspaceRoot := "/w"
  branchName := some "b"

/-- A handler with these answers. -/
def sampleHandle (listing : String) (o : Op) (w : World) : o.Ans × World :=
  Op.handle sampleHost (sampleAnswer listing o w) o w

/-- That run, with its record. -/
def observedRun (listing : String) : Except RuntimeError RunCycleResult × Observed :=
  Prog.exec (Prog.recording (sampleHandle listing)) (sampleRuntime.runTask sampleRun).run
    (sampleWorld ProjectState.oneTask, [])

theorem observedRun_path (listing : String) :
    Prog.Path (Prog.recorded (Op.effect sampleRuntime.host))
      ((sampleRuntime.runTask sampleRun).run, (sampleWorld ProjectState.oneTask, []))
      (.ret (observedRun listing).1, (observedRun listing).2) :=
  Prog.path_recording (fun o w => Op.effect_handle sampleHost (sampleAnswer listing o w) o w) _ _

/-! ### Done only through the gates -/

/-- **Done only through the gates**: in every run of a task, a save of the copy with a task
that is done, but was not when the run began, is a save of the run's own task, before which
the run has passed all gates. The listings of changed files before it are read well, whatever
changes in the working tree meanwhile. -/
theorem done_through_gates (rt : Runtime) (run : TaskRun) {w : World}
    {q : Prog Op Op.Ans (Except RuntimeError RunCycleResult)} {c : Observed}
    (hrun : Prog.Path (Prog.recorded (Op.effect rt.host)) ((rt.runTask run).run, (w, [])) (q, c))
    {later earlier : List RunEvent} {e : RunEvent} (hrecord : c.2 = later ++ e :: earlier)
    (tree : WorkingTree) (hread : tree.ListingsRead (executionRules run.handle.task) earlier)
    {events : List DomainEvent} (hsave : e.op = .write (.save events)) {key : String}
    (hdone : DoneAt e.before.state key) :
    DoneAt w.state key ∨ key = run.handle.key ∧ DoneGates tree run earlier := by
  have hspec := @runTask_spec rt run w.state (w, []) fun _ h => h
  obtain ⟨events', hevents, hall⟩ := Prog.wp_events rfl hspec hrun
  rw [List.append_nil] at hevents
  have hallowed := hall later e earlier (hevents.symm.trans hrecord)
  rw [List.append_nil, hsave] at hallowed
  exact hallowed tree hread key hdone

/-- The copy that an event saves. -/
def savedCopy : RunEvent → Option ProjectState
  | ⟨.write (.save _), _, w⟩ => some w.state
  | _ => none

theorem savedCopy_eq_some {e : RunEvent} {copy : ProjectState} (h : savedCopy e = some copy) :
    (∃ events, e.op = .write (.save events)) ∧ e.before.state = copy := by
  obtain ⟨o, x, w⟩ := e
  cases o with
  | write call =>
    cases call with
    | save events =>
      cases h
      exact ⟨⟨events, rfl⟩, rfl⟩
    | _ => cases h
  | _ => cases h

/-- The status of a task in the copy that an event of a record saves. -/
def savedStatus (record : List RunEvent) (i : Nat) (key : String) : Option BacklogTaskStatus := do
  let e ← record[i]?
  let copy ← savedCopy e
  let task ← copy.backlog.tasks.get? key
  pure task.status

/-- An event of a record splits it. -/
theorem split_of_getElem? {record : List RunEvent} {i : Nat} {e : RunEvent}
    (h : record[i]? = some e) : record = record.take i ++ e :: record.drop (i + 1) := by
  obtain ⟨hi, hget⟩ := List.getElem?_eq_some_iff.mp h
  rw [← hget, List.getElem_cons_drop, List.take_append_drop]

/-- A save with a task that is done, as a split of the record. -/
theorem split_of_savedStatus {record : List RunEvent} {i : Nat} {key : String}
    (h : savedStatus record i key = some .done) :
    ∃ later e events, record = later ++ e :: record.drop (i + 1) ∧
      e.op = .write (.save events) ∧ DoneAt e.before.state key := by
  obtain ⟨e, he, h⟩ := Option.bind_eq_some_iff.mp h
  obtain ⟨copy, hcopy, h⟩ := Option.bind_eq_some_iff.mp h
  obtain ⟨⟨events, hop⟩, rfl⟩ := savedCopy_eq_some hcopy
  obtain ⟨task, htask, hstatus⟩ := Option.bind_eq_some_iff.mp h
  exact ⟨record.take i, e, events, split_of_getElem? he, hop, task, htask, Option.some.inj hstatus⟩

/-! Two working trees. -/

/-- `parser.ts`. -/
def parserPath : RepoPath where
  directories := []
  name := "parser.ts"
  segments_wellFormed := by decide

/-- `.github/workflows/ci.yml`. -/
def workflowPath : RepoPath where
  directories := [".github", "workflows"]
  name := "ci.yml"
  segments_wellFormed := by decide

/-- A modified file that is not staged. -/
def unstaged (path : RepoPath) : TreeChange :=
  .tracked .unmodified .modified path (.inr nofun)

/-- A working tree with a few changes. -/
def treeWith (changes : List TreeChange) : WorkingTree where
  git := .standard
  changes _ := changes

/-- Whether a listing shows a few changes, which keep the rules. -/
def showsAdmitted (task : BacklogTask) (changes : List TreeChange) (stdout : String) : Bool :=
  GitQuoting.standard.porcelain changes = stdout && !(executionRules task).ViolatedBy changes

theorem of_showsAdmitted {task : BacklogTask} {changes : List TreeChange} {stdout : String}
    (h : showsAdmitted task changes stdout = true) :
    GitQuoting.standard.porcelain changes = stdout ∧ ¬ (executionRules task).ViolatedBy changes := by
  simpa [showsAdmitted] using h

/-- Whether an event is no listing, or such a one. -/
def listingAdmitted (task : BacklogTask) (changes : List TreeChange) : RunEvent → Bool
  | ⟨.git (.statusPorcelain _), .ok stdout, _⟩ => showsAdmitted task changes stdout
  | ⟨.git (.statusPorcelain _), .error _, _⟩ => false
  | _ => true

theorem listingRead_of_admitted {task : BacklogTask} {changes : List TreeChange} {e : RunEvent}
    (h : listingAdmitted task changes e = true) (earlier : List RunEvent) :
    (treeWith changes).ListingRead (executionRules task) earlier e := by
  unfold listingAdmitted at h
  split at h
  · next path stdout w =>
    obtain ⟨hprinted, hkept⟩ := of_showsAdmitted h
    exact ⟨hprinted, fun hviolated => absurd hviolated hkept⟩
  · cases h
  · next hother hfailed =>
    unfold WorkingTree.ListingRead
    split
    · next path stdout w => exact absurd rfl (hother path stdout w)
    · next path error w => exact absurd rfl (hfailed path error w)
    · trivial

theorem listingsRead_of_admitted {task : BacklogTask} {changes : List TreeChange}
    {record : List RunEvent} (h : record.all (listingAdmitted task changes) = true) :
    (treeWith changes).ListingsRead (executionRules task) record := by
  induction record with
  | nil => exact .nil
  | cons e earlier ih =>
    obtain ⟨hfirst, hrest⟩ := (Bool.and_eq_true _ _).mp h
    exact .cons (listingRead_of_admitted hfirst earlier) (ih hrest)

theorem oneTask_not_done : ¬ DoneAt ProjectState.oneTask "T-1" := by
  rintro ⟨task, hget, hdone⟩
  obtain ⟨-, rfl⟩ := ProjectState.oneTask_get? hget
  cases hdone

/-- What the records of two runs show: with an untracked file, and with a workflow file that was
changed and not staged. -/
theorem observedRun_records :
    (savedStatus (observedRun "?? parser.ts\n").2.2 7 "T-1" = some .done ∧
      ((observedRun "?? parser.ts\n").2.2.drop (7 + 1)).all
        (listingAdmitted sampleRun.handle.task [.untracked parserPath]) = true) ∧
    savedStatus (observedRun " M .github/workflows/ci.yml\n").2.2 7 "T-1" = some .done := by
  decide +kernel

/-- An untracked file: the run saves its task as done, through the gates. -/
theorem done_through_gates_untracked :
    savedStatus (observedRun "?? parser.ts\n").2.2 7 "T-1" = some .done ∧
      DoneGates (treeWith [.untracked parserPath]) sampleRun
        ((observedRun "?? parser.ts\n").2.2.drop (7 + 1)) := by
  obtain ⟨hstatus, hlistings⟩ := observedRun_records.1
  refine ⟨hstatus, ?_⟩
  obtain ⟨later, e, events, hsplit, hsave, hdone⟩ := split_of_savedStatus hstatus
  have hgated := done_through_gates sampleRuntime sampleRun
    (observedRun_path "?? parser.ts\n") hsplit (treeWith [.untracked parserPath])
    (listingsRead_of_admitted hlistings) hsave hdone
  rcases hgated with hbefore | ⟨-, hgates⟩
  · exact absurd hbefore oneTask_not_done
  · exact hgates

/-- A tracked workflow file that was changed and not staged: git prints
` M .github/workflows/ci.yml`, which the program reads as `github/workflows/ci.yml`, and the run
saves its task as done although the changed file lies in a forbidden directory. -/
theorem done_past_policy :
    GitQuoting.standard.porcelain [unstaged workflowPath] = " M .github/workflows/ci.yml\n" ∧
      savedStatus (observedRun " M .github/workflows/ci.yml\n").2.2 7 "T-1" = some .done ∧
      ¬ DoneAt (sampleWorld ProjectState.oneTask).state "T-1" ∧
      ¬ ChangedFilesAdmitted (treeWith [unstaged workflowPath]) sampleRun.handle.task
        sampleRun.workspaceRoot ((observedRun " M .github/workflows/ci.yml\n").2.2.drop (7 + 1)) := by
  have hprinted : " M .github/workflows/ci.yml\n" =
      GitQuoting.standard.porcelain [unstaged workflowPath] := by
    decide
  refine ⟨hprinted.symm, observedRun_records.2, oneTask_not_done, ?_⟩
  have hviolated : (executionRules sampleRun.handle.task).ViolatedBy [unstaged workflowPath] := by
    decide
  rintro ⟨later, e, earlier, hparts⟩
  exact hparts.2.2.2 hviolated

end Runtime

end AiOrchestrator
