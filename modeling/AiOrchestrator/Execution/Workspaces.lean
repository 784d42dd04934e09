import AiOrchestrator.Execution.Orchestrator

/-!
# Workspaces

`WorkspaceRunCoordinator.run` (`packages/execution/src/workspace/workspace-run-coordinator.ts`) for
any workspace manager, any store and any `execute`: a program over the calls that it awaits, each of
which may fail with any error. `released_iff` says when it releases the workspace that it has
allocated: the two artifacts are recorded before the `try` block, so that a record that fails leaves
the workspace behind. `runInWorkspace_eq` is the program of a run: its calls carried out by the
workspace manager, the store and `TaskRunner.run`.
-/

namespace AiOrchestrator

namespace WorkspaceRunCoordinator

/-- What `run` awaits. A `record` makes an artifact, records it in the store at the revision of the
run's copy and adds it to the copy. -/
inductive Call
  | allocate
  | record (type : ArtifactType) (title : String) (metadata : List (String × String))
  | execute (workspace : ManagedWorkspace)
  | rollback (workspace : ManagedWorkspace)
  | cleanup (workspace : ManagedWorkspace)

/-- What a call resolves to, where `execute` resolves to an `α`. -/
@[reducible] def Call.Res (α : Type) : Call → Type
  | allocate => ManagedWorkspace
  | execute _ => α
  | record .. | rollback _ | cleanup _ => Unit

abbrev Coordination (α β : Type) := Act RuntimeError Call (fun o => Except RuntimeError (o.Res α)) β

def call {α : Type} (o : Call) : Coordination α (o.Res α) := Act.ask o

/-- The metadata of the report about a new workspace. -/
def workspaceMetadata (runId taskId : String) (workspace : ManagedWorkspace) :
    List (String × String) :=
  [("runId", runId), ("taskId", taskId), ("workspaceRoot", workspace.rootPath),
    ("hasInitialDiff", if workspace.initialDiff ≠ "" then "true" else "false")]

/-- The metadata of a branch artifact. -/
def branchMetadata (runId taskId : String) (branchName : Option String) :
    List (String × String) :=
  [("runId", runId), ("taskId", taskId), ("stage", "branch"),
    ("branchName", branchName.getD "unknown")]

/-- The record of the report about a new workspace. -/
abbrev Call.report (runId taskId : String) (workspace : ManagedWorkspace) : Call :=
  .record .report s!"Workspace initialized for {taskId}" (workspaceMetadata runId taskId workspace)

/-- `recordBranchArtifact`. -/
abbrev Call.branch (runId taskId : String) (workspace : ManagedWorkspace) : Call :=
  .record .gitLifecycle s!"Git branch for {taskId}"
    (branchMetadata runId taskId (presentText workspace.branchName))

/-- The `try` statement of `run`. -/
def guarded {α : Type} (workspace : ManagedWorkspace) : Coordination α α :=
  Act.finallyDo
    (Act.catching (call (.execute workspace)) fun error => do
      Act.ignoring (call (.rollback workspace))
      throw error)
    fun _ => Act.ignoring (call (.cleanup workspace))

/-- **`run`**. -/
def run {α : Type} (runId taskId : String) : Coordination α α := do
  let workspace : ManagedWorkspace ← call .allocate
  call (.report runId taskId workspace)
  call (.branch runId taskId workspace)
  guarded workspace

/-! ### Release -/

/-- A call that was awaited, with its answer. -/
abbrev Occurrence (α S : Type) := Prog.Event Call (fun o => Except RuntimeError (o.Res α)) S

/-- The calls that release a workspace. -/
def Call.IsRelease : Call → Prop
  | rollback _ | cleanup _ => True
  | allocate | record .. | execute _ => False

/-- The calls that record an artifact. -/
def Call.IsRecord : Call → Prop
  | record .. => True
  | allocate | execute _ | rollback _ | cleanup _ => False

/-- **The workspace is released**: `cleanup` is the last call and the only one of its kind, `rollback`
was called if and only if the run failed, and the result is that of `execute`, or the error of a
call that does not release. The calls are listed newest first. -/
structure Released {α S : Type} (workspace : ManagedWorkspace) (result : Except RuntimeError α)
    (calls : List (Occurrence α S)) : Prop where
  cleanup : ∃ last earlier, calls = last :: earlier ∧ last.op = .cleanup workspace ∧
    ∀ e ∈ earlier, ∀ other, e.op ≠ .cleanup other
  rollback : (∃ e ∈ calls, e.op = .rollback workspace) ↔ ∃ error, result = .error error
  failure : ∀ error, result = .error error →
    ∃ e ∈ calls, ¬ e.op.IsRelease ∧ e.answer = .error error
  success : ∀ a, result = .ok a → ∃ before, ⟨.execute workspace, .ok a, before⟩ ∈ calls

section Release

variable {α S : Type} {runId taskId : String} {workspace : ManagedWorkspace}
  {calls : List (Occurrence α S)}

/-- Without a call that releases the workspace is not released. -/
theorem not_released {result : Except RuntimeError α} (h : ∀ e ∈ calls, ¬ e.op.IsRelease) :
    ¬ Released workspace result calls := by
  intro hreleased
  obtain ⟨last, earlier, rfl, hlast, -⟩ := hreleased.cleanup
  refine h last List.mem_cons_self ?_
  rw [hlast]
  trivial

theorem op_ne_of_not_isRelease {e : Occurrence α S} (h : ¬ e.op.IsRelease) (other : ManagedWorkspace) :
    e.op ≠ .cleanup other ∧ e.op ≠ .rollback other := by
  constructor
  · intro heq
    rw [heq] at h
    exact h trivial
  · intro heq
    rw [heq] at h
    exact h trivial

variable (handle : (o : Call) → S → Except RuntimeError (o.Res α) × S)

/-- **The `try` statement** releases its workspace, whatever the calls in it answer. -/
theorem released_guarded (workspace : ManagedWorkspace) (s : S) (calls : List (Occurrence α S))
    (hcalls : ∀ e ∈ calls, ¬ e.op.IsRelease) :
    ∃ result s' added, Act.exec (Prog.recording handle) (guarded workspace) (s, calls) =
        (result, s', added ++ calls) ∧
      (∀ e ∈ added, ¬ e.op.IsRecord) ∧ Released workspace result (added ++ calls) := by
  unfold guarded call
  rw [Act.exec_finallyDo, Act.exec_catching, Act.exec_ask]
  have hother : ∀ e ∈ calls, ∀ other, e.op ≠ .cleanup other ∧ e.op ≠ .rollback other :=
    fun e he => op_ne_of_not_isRelease (hcalls e he)
  rcases hexecute : handle (.execute workspace) s with ⟨result, s₁⟩
  cases result with
  | ok a =>
    simp only [Prog.recording, hexecute, Act.exec_ignoring, Act.exec_ask]
    refine ⟨.ok a, _, [⟨.cleanup workspace, _, _⟩, ⟨.execute workspace, .ok a, s⟩], rfl, ?_,
      ⟨⟨_, _, rfl, rfl, ?_⟩, ?_, ?_, ?_⟩⟩
    · intro e he
      rcases List.mem_pair.mp he with rfl | rfl <;> exact id
    · intro e he other
      rcases List.mem_cons.mp he with rfl | he
      · exact fun h => by cases h
      · exact (hother e he other).1
    · refine iff_of_false ?_ fun ⟨error, herror⟩ => by cases herror
      rintro ⟨e, he, hop⟩
      rcases List.mem_cons.mp he with rfl | he
      · cases hop
      rcases List.mem_cons.mp he with rfl | he
      · cases hop
      · exact (hother e he workspace).2 hop
    · intro error herror
      cases herror
    · intro b hb
      cases hb
      exact ⟨s, List.mem_cons_of_mem _ List.mem_cons_self⟩
  | error error =>
    simp only [Prog.recording, hexecute, Act.exec_ignoring, Act.exec_ask, Act.exec_bind,
      Act.exec_throw]
    refine ⟨.error error, _, [⟨.cleanup workspace, _, _⟩, ⟨.rollback workspace, _, _⟩,
      ⟨.execute workspace, .error error, s⟩], rfl, ?_, ⟨⟨_, _, rfl, rfl, ?_⟩, ?_, ?_, ?_⟩⟩
    · intro e he
      rcases List.mem_cons.mp he with rfl | he
      · exact id
      rcases List.mem_pair.mp he with rfl | rfl <;> exact id
    · intro e he other
      rcases List.mem_cons.mp he with rfl | he
      · exact fun h => by cases h
      rcases List.mem_cons.mp he with rfl | he
      · exact fun h => by cases h
      · exact (hother e he other).1
    · exact iff_of_true ⟨_, List.mem_cons_of_mem _ List.mem_cons_self, rfl⟩ ⟨error, rfl⟩
    · intro error' herror
      cases herror
      exact ⟨_, List.mem_cons_of_mem _ (List.mem_cons_of_mem _ List.mem_cons_self), id, rfl⟩
    · intro b hb
      cases hb

/-- The program with its calls recorded. -/
def runRecorded (runId taskId : String) (s : S) :
    Except RuntimeError α × S × List (Occurrence α S) :=
  Act.exec (Prog.recording handle) (run runId taskId) (s, [])

/-- **The release of workspaces**: once a workspace is allocated it is released if and only if all
records of artifacts succeed, whatever the manager, the store and `execute` answer. -/
theorem released_iff (s : S) (hallocate : (handle .allocate s).1 = .ok workspace) :
    Released workspace (runRecorded handle runId taskId s).1
        (runRecorded handle runId taskId s).2.2 ↔
      ∀ e ∈ (runRecorded handle runId taskId s).2.2, e.op.IsRecord → ∃ a, e.answer = .ok a := by
  obtain ⟨s₁, h₁⟩ : ∃ s₁, handle .allocate s = (.ok workspace, s₁) := ⟨_, Prod.ext hallocate rfl⟩
  let allocated : Occurrence α S := ⟨.allocate, .ok workspace, s⟩
  rcases h₂ : handle (.report runId taskId workspace) s₁ with ⟨r₂, s₂⟩
  let reported : Occurrence α S := ⟨.report runId taskId workspace, r₂, s₁⟩
  have hbefore : ∀ e ∈ [reported, allocated], ¬ e.op.IsRelease := by
    intro e he
    rcases List.mem_pair.mp he with rfl | rfl <;> exact id
  cases r₂ with
  | error error =>
    -- the report fails: nothing is released
    have hrun : runRecorded handle runId taskId s = (.error error, s₂, [reported, allocated]) := by
      simp only [runRecorded, run, call, Act.exec_bind, Act.exec_ask, Prog.recording, h₁, h₂,
        reported, allocated]
    rw [hrun]
    refine iff_of_false (not_released hbefore) fun hall => ?_
    obtain ⟨a, ha⟩ := hall reported List.mem_cons_self trivial
    cases ha
  | ok _ =>
    rcases h₃ : handle (.branch runId taskId workspace) s₂ with ⟨r₃, s₃⟩
    let branched : Occurrence α S := ⟨.branch runId taskId workspace, r₃, s₂⟩
    have hbefore' : ∀ e ∈ [branched, reported, allocated], ¬ e.op.IsRelease := by
      intro e he
      rcases List.mem_cons.mp he with rfl | he
      · exact id
      · exact hbefore e he
    cases r₃ with
    | error error =>
      -- the record of the branch fails
      have hrun : runRecorded handle runId taskId s =
          (.error error, s₃, [branched, reported, allocated]) := by
        simp only [runRecorded, run, call, Act.exec_bind, Act.exec_ask, Prog.recording, h₁, h₂, h₃,
          branched, reported, allocated]
      rw [hrun]
      refine iff_of_false (not_released hbefore') fun hall => ?_
      obtain ⟨a, ha⟩ := hall branched List.mem_cons_self trivial
      cases ha
    | ok _ =>
      obtain ⟨result, s', added, hexec, hadded, hreleased⟩ :=
        released_guarded handle workspace s₃ [branched, reported, allocated] hbefore'
      have hrun : runRecorded handle runId taskId s =
          (result, s', added ++ [branched, reported, allocated]) := by
        rw [← hexec]
        simp only [runRecorded, run, call, Act.exec_bind, Act.exec_ask, Prog.recording, h₁, h₂, h₃,
          branched, reported, allocated]
      rw [hrun]
      refine iff_of_true hreleased fun e he hrecord => ?_
      rcases List.mem_append.mp he with hnew | hold
      · exact absurd hrecord (hadded e hnew)
      rcases List.mem_cons.mp hold with rfl | hold
      · exact ⟨(), rfl⟩
      rcases List.mem_pair.mp hold with rfl | rfl
      · exact ⟨(), rfl⟩
      · exact absurd hrecord id

end Release

/-- A workspace of a run. -/
def sampleWorkspace : ManagedWorkspace where
  rootPath := "/tmp/ai-orchestrator-org-project-run-x"
  branchName := some "orchestrator/run-1-run"
  initialDiff := ""

/-- A manager that allocates the sample workspace and fails to roll back, a store that answers each
record with `recorded`, and an `execute` that returns or fails. -/
def sampleCalls (recorded : Except RuntimeError Unit) (executed : Except RuntimeError Nat) :
    (o : Call) → Unit → Except RuntimeError (o.Res Nat) × Unit
  | .allocate, s => (.ok sampleWorkspace, s)
  | .record .., s => (recorded, s)
  | .execute _, s => (executed, s)
  | .rollback _, s => (.error (.plain "git reset failed"), s)
  | .cleanup _, s => (.ok (), s)

/-- An `execute` that fails: its workspace is released, although the rollback fails too. -/
theorem released_iff_failure :
    Released sampleWorkspace
      (runRecorded (sampleCalls (.ok ()) (.error (.plain "role failed"))) "run" "T-1" ()).1
      (runRecorded (sampleCalls (.ok ()) (.error (.plain "role failed"))) "run" "T-1" ()).2.2 := by
  refine (released_iff (sampleCalls (.ok ()) (.error (.plain "role failed"))) () rfl).mpr ?_
  have hcalls : (runRecorded (sampleCalls (.ok ()) (.error (.plain "role failed"))) "run" "T-1"
      ()).2.2 =
      [⟨.cleanup sampleWorkspace, .ok (), ()⟩,
        ⟨.rollback sampleWorkspace, .error (.plain "git reset failed"), ()⟩,
        ⟨.execute sampleWorkspace, .error (.plain "role failed"), ()⟩,
        ⟨.branch "run" "T-1" sampleWorkspace, .ok (), ()⟩,
        ⟨.report "run" "T-1" sampleWorkspace, .ok (), ()⟩,
        ⟨.allocate, .ok sampleWorkspace, ()⟩] := rfl
  rw [hcalls]
  simp [Call.IsRecord]

/-- **A workspace that is left behind**: another client has written to the store since the run has
loaded its state, so that the record of the report is refused, and neither rollback nor cleanup is
called. -/
theorem workspace_left :
    (runRecorded (sampleCalls (.error stateRevisionConflict) (.ok 0)) "run" "T-1" ()).1 =
        .error stateRevisionConflict ∧
      (runRecorded (sampleCalls (.error stateRevisionConflict) (.ok 0)) "run" "T-1" ()).2.2.map
          (·.op) =
        [.report "run" "T-1" sampleWorkspace, .allocate] ∧
      ¬ Released sampleWorkspace
        (runRecorded (sampleCalls (.error stateRevisionConflict) (.ok 0)) "run" "T-1" ()).1
        (runRecorded (sampleCalls (.error stateRevisionConflict) (.ok 0)) "run" "T-1" ()).2.2 := by
  refine ⟨rfl, rfl, not_released fun e he => ?_⟩
  have hcalls : ∀ o ∈ [Call.report "run" "T-1" sampleWorkspace, .allocate], ¬ o.IsRelease := by
    intro o ho
    rcases List.mem_pair.mp ho with rfl | rfl <;> exact id
  exact hcalls e.op (List.mem_map_of_mem he)

end WorkspaceRunCoordinator

namespace Runtime

open WorkspaceRunCoordinator

variable (rt : Runtime)

/-- How the calls are carried out in a run. -/
def carryOut (handle : TaskHandle) (runId : String) (state : ProjectState) :
    (o : Call) → Action (o.Res RunCycleResult)
  | .allocate => rt.allocateWorkspace runId state.orgId state.projectId
  | .record type title metadata => recordNew type title metadata
  | .execute workspace => rt.runTask
      { handle, runId, workspaceRoot := workspace.rootPath
        branchName := presentText workspace.branchName }
  | .rollback workspace => rollbackWorkspace workspace
  | .cleanup workspace => rt.cleanupWorkspace workspace

/-- **A run in a workspace** is the program of the coordinator with its calls carried out. -/
theorem runInWorkspace_eq (handle : TaskHandle) (runId : String) :
    rt.runInWorkspace handle runId = request .readState >>= fun state : ProjectState =>
      Act.interp (rt.carryOut handle runId state)
        (WorkspaceRunCoordinator.run runId handle.task.id) := by
  unfold runInWorkspace
  refine congrArg (request .readState >>= ·) (funext fun state => ?_)
  unfold WorkspaceRunCoordinator.run call
  rw [Act.interp_bind, Act.interp_ask]
  refine congrArg (rt.allocateWorkspace runId state.orgId state.projectId >>= ·)
    (funext fun workspace => ?_)
  rw [Act.interp_bind, Act.interp_ask]
  refine congrArg (_ >>= ·) (funext fun _ => ?_)
  rw [Act.interp_bind, Act.interp_ask]
  refine congrArg (_ >>= ·) (funext fun _ => ?_)
  unfold guarded call
  rw [Act.interp_finallyDo, Act.interp_catching, Act.interp_ask]
  simp only [Act.interp_bind, Act.interp_ignoring, Act.interp_ask]
  rfl

end Runtime

end AiOrchestrator
