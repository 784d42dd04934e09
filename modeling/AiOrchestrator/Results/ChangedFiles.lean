import AiOrchestrator.Execution.GitStatus
import AiOrchestrator.Results.GitReading

/-!
# The gate on changed files

What the check of the execution policy says of a working tree, compared with what its changes are. It finds a violation
where it sees one (`ExecutionPolicyRule.Finds`), which is not where there is one (`ExecutionPolicyRule.ViolatedBy`): a
directory of untracked files is one entry, of a renamed file only the origin is seen, and whether the directories of an
entry are seen depends on its first column and its quotes. A listing that fails is taken for an empty one.
-/

namespace AiOrchestrator

/-! ### The gate -/

namespace Runtime

/-- The files that the program reads of a listing. -/
def changedFilesOf (git : GitQuoting) : StatusRead → List String
  | .listed changes => listedFiles (git.porcelain changes)
  | .failed _ => []

/-- **What the gate has to do**: throw exactly on a violation, and throw if the changes could not be listed. -/
def PolicyEnforced (rules : ExecutionPolicyRule) (result : Except RuntimeError Unit) : StatusRead → Prop
  | .listed changes => (∃ error, result = .error error) ↔ rules.ViolatedBy changes
  | .failed _ => ∃ error, result = .error error

/-- The changes were listed, and the check finds a violation in them exactly where there is one. -/
def FindsViolations (rules : ExecutionPolicyRule) (git : GitQuoting) : StatusRead → Prop
  | .listed changes => rules.Finds git changes ↔ rules.ViolatedBy changes
  | .failed _ => False

variable {S : Type}

/-- The gate is the check on what the program reads. -/
theorem exec_enforceExecutionPolicy (git : GitQuoting) (handle : (o : Op) → S → o.Ans × S) (s : S)
    (context : RoleExecutionContext) (read : StatusRead)
    (hread : (handle (.git (.statusPorcelain context.workspaceRoot)) s).1 = read.answer git) :
    ((enforceExecutionPolicy context).exec handle s).1 =
      checkChangedFiles context.policyRules context.role (changedFilesOf git read) := by
  have hfiles : ((listWorkspaceChangedFiles context.workspaceRoot).exec handle s).1 =
      .ok (changedFilesOf git read) := by
    rw [listWorkspaceChangedFiles, Act.exec_bind, exec_tryGit]
    simp only []
    rw [hread]
    cases read <;> rfl
  rw [enforceExecutionPolicy, Act.exec_bind]
  revert hfiles
  rcases (listWorkspaceChangedFiles context.workspaceRoot).exec handle s with ⟨answer, s'⟩
  intro hanswer
  subst hanswer
  dsimp only
  rw [Act.exec_ofExcept]

/-- **The gate on changed files** does what it has to exactly when the changes could be listed and a violation is found
where there is one. -/
theorem enforceExecutionPolicy_iff (git : GitQuoting) (handle : (o : Op) → S → o.Ans × S) (s : S)
    (context : RoleExecutionContext) (read : StatusRead)
    (hread : (handle (.git (.statusPorcelain context.workspaceRoot)) s).1 = read.answer git)
    (hnamed : context.policyRules.WellNamed) :
    PolicyEnforced context.policyRules ((enforceExecutionPolicy context).exec handle s).1 read ↔
      FindsViolations context.policyRules git read := by
  rw [exec_enforceExecutionPolicy git handle s context read hread]
  cases read with
  | listed changes =>
    show ((∃ error, checkChangedFiles _ _ (listedFiles (git.porcelain changes)) = .error error) ↔ _) ↔ _
    rw [checkChangedFiles_porcelain_iff hnamed]
    rfl
  | failed error =>
    refine iff_of_false ?_ id
    rintro ⟨error, hthrown⟩
    have hempty : context.policyRules.Admits [] := ⟨Nat.zero_le _, nofun⟩
    have hpasses : checkChangedFiles context.policyRules context.role [] = .ok () :=
      checkChangedFiles_ok_iff.mpr hempty
    cases hpasses.symm.trans hthrown

/-! A working tree with a change or two. -/

/-- The context of the coder in a workspace. -/
def coderContext : RoleExecutionContext :=
  makeContext .coder "run-1" ProjectState.oneTask "/w" (some "T-1") false

/-- A change that is staged, of a workflow, beside one that is not. -/
def stagedWorkflow : List TreeChange :=
  [unstaged nestedLoginPath, .tracked .modified .unmodified workflowPath (.inl nofun)]

/-- The workflow, staged, is found among the changes. -/
theorem enforceExecutionPolicy_iff_staged :
    PolicyEnforced coderContext.policyRules ((enforceExecutionPolicy coderContext).exec
      (printing " M src/auth/login.ts\nM  .github/workflows/ci.yml\n") (sampleWorld ProjectState.oneTask)).1
      (.listed stagedWorkflow) := by
  have hprinted : " M src/auth/login.ts\nM  .github/workflows/ci.yml\n" =
      GitQuoting.standard.porcelain stagedWorkflow := by
    decide
  refine (enforceExecutionPolicy_iff .standard _ _ coderContext (.listed stagedWorkflow)
    (congrArg Except.ok hprinted) (wellNamed_defaultRulesByPolicy _)).mpr ?_
  show _ ↔ _
  decide

/-- A workflow, changed and not staged, is shown as a file of `github/workflows` and passes the gate. -/
theorem unstaged_workflow_passes :
    (printing " M .github/workflows/ci.yml\n" (.git (.statusPorcelain "/w"))
      (sampleWorld ProjectState.oneTask)).1 =
        (StatusRead.listed [unstaged workflowPath]).answer .standard ∧
    ¬ PolicyEnforced coderContext.policyRules ((enforceExecutionPolicy coderContext).exec
      (printing " M .github/workflows/ci.yml\n") (sampleWorld ProjectState.oneTask)).1
      (.listed [unstaged workflowPath]) := by
  have hprinted : " M .github/workflows/ci.yml\n" =
      GitQuoting.standard.porcelain [unstaged workflowPath] := by
    decide
  refine ⟨congrArg Except.ok hprinted, fun h => ?_⟩
  have hviolated : coderContext.policyRules.ViolatedBy [unstaged workflowPath] := by decide
  rw [exec_enforceExecutionPolicy .standard _ _ coderContext (.listed [unstaged workflowPath])
    (congrArg Except.ok hprinted)] at h
  have hfound := (checkChangedFiles_porcelain_iff (wellNamed_defaultRulesByPolicy _) _ .standard _).mp
    (h.mpr hviolated)
  exact absurd hfound (by decide)

end Runtime

end AiOrchestrator
