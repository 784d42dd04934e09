import AiOrchestrator.Mutation.Branch
import AiOrchestrator.Mutation.Course

/-!
# The branch of a run

When the stages of a mutation run agree on the branch. The name that `branch_prepare` generates
always satisfies the policy, and tells two runs apart when their ids have different words. After
`branch_prepare` has succeeded the context names the branch of the workspace, except where the
stage found the workspace on the target branch already, or has no callback to put it there
(`executeBranchPrepareStage_agrees_iff`). `branches_agree_iff` carries this through the calls of a
run of the pipeline.
-/

namespace AiOrchestrator

namespace RepoMutationPipeline

variable {ω : Type} (git : GitCallbacks ω) (branch : ω → String)

/-- **What the callbacks do**, where `branch` is the branch a workspace is on: the current branch is
the one that is named, a branch that was ensured is the current one afterwards, and a push or a pull
request leaves the workspace on its branch. -/
structure Truthful : Prop where
  current : ∀ getCurrentBranch, git.getCurrentBranch = some getCurrentBranch → ∀ workspace,
    branch (getCurrentBranch workspace).2 = branch workspace ∧
      ∀ text, (getCurrentBranch workspace).1 = .ok text → Text.trim text = branch workspace
  ensure : ∀ ensureBranch, git.ensureBranch = some ensureBranch → ∀ name workspace created,
    (ensureBranch name workspace).1 = .ok created → branch (ensureBranch name workspace).2 = name
  push : ∀ push, git.push = some push → ∀ path name workspace,
    branch (push path name workspace).2 = branch workspace
  createDraftPr : ∀ createDraftPr, git.createDraftPr = some createDraftPr →
    ∀ path name title body workspace,
      branch (createDraftPr path name title body workspace).2 = branch workspace

/-- The context names the branch `b`, and the workspace is on it. -/
def OnBranch (b : String) (s : MutationWorld ω) : Prop :=
  s.context.branchName = some b ∧ branch s.workspace = b

/-- The stage has failed for want of a branch. -/
def ResultWantsBranch (result : RepoMutationStageResult) : Prop :=
  ∃ failure, result.failure = some failure ∧ (failure.code = "PUSH_PREPARE_BRANCH_REQUIRED" ∨
    failure.code = "PR_DRAFT_PREPARE_BRANCH_REQUIRED")

/-- An outcome with such a result. -/
def WantsBranch (outcome : StageOutcome) : Prop :=
  ∃ result aborted, outcome = .settled (.ok result) aborted ∧ ResultWantsBranch result

/-- A push and a pull request act on the branch `b`. -/
def ActsOn (b : String) : StageCall (MutationWorld ω) → Prop
  | .executed name before outcome => name = .pushPrepare ∨ name = .prDraftPrepare →
      OnBranch branch b before ∧ ¬ WantsBranch outcome
  | .compensated .. => True

/-- **The stages agree on the branch**: when `branch_prepare` has succeeded, the context names the
branch that the workspace is on, and the later stages act on it. -/
def Agree : List (StageCall (MutationWorld ω)) → Prop
  | [] => True
  | .compensated .. :: later => Agree later
  | .executed name before outcome :: later =>
    (name = .branchPrepare → outcome.succeeded = true →
      ∃ b, OnBranch branch b (executeBranchPrepareStage git before).2 ∧
        ∀ call ∈ later, ActsOn branch b call) ∧ Agree later

/-- The workspace is not on the target branch and can be put there; or it is there already, and the
stage does not ask. -/
def Preparable (s : MutationWorld ω) : Prop :=
  if branch s.workspace = targetBranch s.context then git.getCurrentBranch = none
  else git.ensureBranch.isSome = true

/-! ### One execution of `branch_prepare` -/

variable {git branch}

/-- What an execution of `branch_prepare` does: it fails and leaves the context alone, it finds the
target branch, or it puts the workspace there and the name of the branch in the context. -/
inductive BranchPrepared (git : GitCallbacks ω) (s : MutationWorld ω) :
    RepoMutationStageResult × MutationWorld ω → Prop
  | failed {result : RepoMutationStageResult} {s' : MutationWorld ω} (hok : result.ok = false)
      (hcontext : s'.context = s.context) : BranchPrepared git s (result, s')
  | found {result : RepoMutationStageResult} {text : String} {workspace : ω}
      (hok : result.ok = true)
      (hcurrent : callIfGiven git.getCurrentBranch s.workspace = (.ok (some text), workspace))
      (htarget : Text.trim text = targetBranch s.context) :
      BranchPrepared git s (result, { s with workspace })
  | ensured {result : RepoMutationStageResult} {current : Option String} {created : Option Bool}
      {workspace workspace' : ω} (hok : result.ok = true)
      (hcurrent : callIfGiven git.getCurrentBranch s.workspace = (.ok current, workspace))
      (hother : current.map Text.trim ≠ some (targetBranch s.context))
      (hensured : callIfGiven (git.ensureBranch.map (· (targetBranch s.context))) workspace =
        (.ok created, workspace')) :
      BranchPrepared git s (result,
        { context := { s.context with branchName := some (targetBranch s.context) }
          workspace := workspace' })

variable (git) in
theorem branchPrepared (s : MutationWorld ω) :
    BranchPrepared git s (executeBranchPrepareStage git s) := by
  unfold executeBranchPrepareStage
  dsimp only
  split
  · exact .failed rfl rfl
  · split
    · exact .failed rfl rfl
    · next current workspace hcurrent =>
      split
      · next htarget =>
        obtain ⟨text, rfl, htext⟩ := Option.map_eq_some_iff.mp htarget
        exact .found rfl hcurrent htext
      · next hother =>
        unfold ensureTargetBranch
        split
        · exact .failed rfl rfl
        · next ensured workspace' hensured => exact .ensured rfl hcurrent hother hensured

/-- An execution that does not succeed leaves the context alone. -/
theorem context_of_failed {s : MutationWorld ω}
    (h : (executeBranchPrepareStage git s).1.ok = false) :
    (executeBranchPrepareStage git s).2.context = s.context := by
  have hprepared := branchPrepared git s
  generalize executeBranchPrepareStage git s = done at h hprepared
  cases hprepared with
  | failed hok hcontext => exact hcontext
  | found hok hcurrent htarget => rfl
  | ensured hok hcurrent hother hensured =>
    rw [hok] at h
    cases h

/-- The answer of a callback that is given. -/
theorem callIfGiven_ok {α : Type} {callback : Option (ω → Except StageError α × ω)}
    {workspace workspace' : ω} {value : Option α}
    (h : callIfGiven callback workspace = (.ok value, workspace')) :
    (callback = none ∧ value = none ∧ workspace' = workspace) ∨
      ∃ call x, callback = some call ∧ (call workspace).1 = .ok x ∧ value = some x ∧
        workspace' = (call workspace).2 := by
  unfold callIfGiven at h
  cases callback with
  | none =>
    obtain ⟨hvalue, hworkspace⟩ := Prod.mk.inj h
    exact .inl ⟨rfl, (Except.ok.inj hvalue).symm, hworkspace.symm⟩
  | some call =>
    obtain ⟨hvalue, hworkspace⟩ := Prod.mk.inj h
    cases hanswer : (call workspace).1 with
    | error error =>
      rw [hanswer] at hvalue
      cases hvalue
    | ok x =>
      rw [hanswer] at hvalue
      exact .inr ⟨call, x, rfl, hanswer, (Except.ok.inj hvalue).symm, hworkspace.symm⟩

/-- **When `branch_prepare` leaves the context and the workspace in agreement.** -/
theorem executeBranchPrepareStage_agrees_iff (htruthful : Truthful git branch)
    {s : MutationWorld ω} (hnone : s.context.branchName = none)
    (hok : (executeBranchPrepareStage git s).1.ok = true) :
    (∃ b, OnBranch branch b (executeBranchPrepareStage git s).2) ↔ Preparable git branch s := by
  have hprepared := branchPrepared git s
  generalize executeBranchPrepareStage git s = done at hok hprepared
  unfold Preparable
  cases hprepared with
  | failed hfailed hcontext =>
    rw [hfailed] at hok
    cases hok
  | @found result text workspace hok hcurrent htarget =>
    -- the name stays absent, and the workspace was on the target branch
    rcases callIfGiven_ok hcurrent with ⟨-, hvalue, -⟩ | ⟨call, answer, hgiven, htext, hvalue, -⟩
    · cases hvalue
    · obtain rfl := Option.some.inj hvalue
      have hbranch := (htruthful.current call hgiven s.workspace).2 text htext
      rw [if_pos (hbranch.symm.trans htarget), hgiven]
      refine iff_of_false ?_ nofun
      rintro ⟨b, hb, -⟩
      rw [hnone] at hb
      cases hb
  | @ensured result current created workspace workspace' hok hcurrent hother hensured =>
    have hkept : branch workspace = branch s.workspace ∧
        (git.getCurrentBranch = none ∨ branch s.workspace ≠ targetBranch s.context) := by
      rcases callIfGiven_ok hcurrent with ⟨hnot, -, rfl⟩ | ⟨call, text, hgiven, htext, rfl, rfl⟩
      · exact ⟨rfl, .inl hnot⟩
      · obtain ⟨hsame, hnamed⟩ := htruthful.current call hgiven s.workspace
        refine ⟨hsame, .inr fun heq => hother ?_⟩
        rw [Option.map_some, hnamed text htext, heq]
    have hafter : (∃ b, OnBranch branch b
        { context := { s.context with branchName := some (targetBranch s.context) }
          workspace := workspace' : MutationWorld ω }) ↔
        branch workspace' = targetBranch s.context := by
      constructor
      · rintro ⟨b, hb, hbranch⟩
        rw [hbranch]
        exact (Option.some.inj hb).symm
      · exact fun hbranch => ⟨_, rfl, hbranch⟩
    rw [hafter]
    rcases callIfGiven_ok hensured with ⟨hmissing, -, rfl⟩ | ⟨call, x, hgiven, hx, -, rfl⟩
    · -- no callback: the workspace stays where it is
      have hmissing' : git.ensureBranch = none := Option.map_eq_none_iff.mp hmissing
      rw [hkept.1, hmissing']
      split
      · next hon => exact iff_of_true hon (hkept.2.resolve_right fun hne => hne hon)
      · next hoff => exact iff_of_false hoff nofun
    · obtain ⟨ensureBranch, hensure, rfl⟩ := Option.map_eq_some_iff.mp hgiven
      refine iff_of_true (htruthful.ensure ensureBranch hensure _ workspace x hx) ?_
      split
      · next hon => exact hkept.2.resolve_right fun hne => hne hon
      · rw [hensure]
        rfl

/-! ### The stages of a run -/

variable (git branch) in
/-- **A stage of a mutation run**: one of the executors above, or a stage that leaves the context
and the branch of the workspace alone. -/
def IsMutationStage (stage : RepoMutationStageDefinition (MutationWorld ω)) : Prop :=
  match stage.name with
  | .branchPrepare => ∃ timeoutMs maxAttempts timing compensate, stage =
      mutationStage .branchPrepare timeoutMs maxAttempts timing compensate
        (executeBranchPrepareStage git)
  | .pushPrepare => ∃ timeoutMs maxAttempts timing compensate, stage =
      mutationStage .pushPrepare timeoutMs maxAttempts timing compensate
        (executePushPrepareStage git)
  | .prDraftPrepare => ∃ timeoutMs maxAttempts timing compensate title body, stage =
      mutationStage .prDraftPrepare timeoutMs maxAttempts timing compensate
        (executePrDraftPrepareStage git title body)
  | .workspacePrepare | .changeApply | .verification | .commitPrepare | .finalize =>
    ∀ s, (stage.execute s).2.context = s.context ∧
      branch (stage.execute s).2.workspace = branch s.workspace

/-- `s'` has the context of `s`, and its workspace is on the same branch. -/
def SameBranch (branch : ω → String) (s s' : MutationWorld ω) : Prop :=
  s'.context = s.context ∧ branch s'.workspace = branch s.workspace

theorem OnBranch.of_same {b : String} {s s' : MutationWorld ω} (h : OnBranch branch b s)
    (hsame : SameBranch branch s s') : OnBranch branch b s' :=
  ⟨(congrArg _ hsame.1).trans h.1, hsame.2.trans h.2⟩

theorem push_sameBranch (htruthful : Truthful git branch) (s : MutationWorld ω) :
    SameBranch branch s (executePushPrepareStage git s).2 := by
  unfold executePushPrepareStage
  cases presentBranch s.context with
  | none => exact ⟨rfl, rfl⟩
  | some name =>
    have hworkspace : branch ((git.push.getD fun _ _ workspace =>
        (.error (.error "Push executor is not configured"), workspace))
          s.context.workspacePath name s.workspace).2 = branch s.workspace := by
      cases hpush : git.push with
      | none => rfl
      | some push => exact htruthful.push push hpush _ _ _
    dsimp only
    split
    · next heq =>
      rw [heq] at hworkspace
      exact ⟨rfl, hworkspace⟩
    · next heq =>
      rw [heq] at hworkspace
      exact ⟨rfl, hworkspace⟩

theorem prDraft_sameBranch (htruthful : Truthful git branch) (title body : String)
    (s : MutationWorld ω) : SameBranch branch s (executePrDraftPrepareStage git title body s).2 := by
  unfold executePrDraftPrepareStage
  cases presentBranch s.context with
  | none => exact ⟨rfl, rfl⟩
  | some name =>
    have hworkspace : branch ((git.createDraftPr.getD fun _ _ _ _ workspace =>
        (.error (.error "PR draft executor is not configured"), workspace))
          s.context.workspacePath name title body s.workspace).2 = branch s.workspace := by
      cases hcreate : git.createDraftPr with
      | none => rfl
      | some createDraftPr => exact htruthful.createDraftPr createDraftPr hcreate _ _ _ _ _
    dsimp only
    split
    · next heq =>
      rw [heq] at hworkspace
      exact ⟨rfl, hworkspace⟩
    · next heq =>
      rw [heq] at hworkspace
      exact ⟨rfl, hworkspace⟩

/-- Only `branch_prepare` changes the context or the branch. -/
theorem IsMutationStage.sameBranch (htruthful : Truthful git branch)
    {stage : RepoMutationStageDefinition (MutationWorld ω)} (h : IsMutationStage git branch stage)
    (hname : stage.name ≠ .branchPrepare) (s : MutationWorld ω) :
    SameBranch branch s (stage.execute s).2 := by
  unfold IsMutationStage at h
  cases hcase : stage.name with
  | branchPrepare => exact absurd hcase hname
  | pushPrepare =>
    simp only [hcase] at h
    obtain ⟨timeoutMs, maxAttempts, timing, compensate, rfl⟩ := h
    exact push_sameBranch htruthful s
  | prDraftPrepare =>
    simp only [hcase] at h
    obtain ⟨timeoutMs, maxAttempts, timing, compensate, title, body, rfl⟩ := h
    exact prDraft_sameBranch htruthful title body s
  | workspacePrepare | changeApply | verification | commitPrepare | finalize =>
    simp only [hcase] at h
    exact h s

/-- The outcome of a stage has the result of its executor. -/
theorem wantsBranch_mutationStage {name : RepoMutationStageName} {timeoutMs : Nat}
    {maxAttempts : Number} {timing : MutationWorld ω → Option Bool}
    {compensate : Option (MutationWorld ω → Except StageError Unit × MutationWorld ω)}
    {execute : MutationWorld ω → RepoMutationStageResult × MutationWorld ω} {s : MutationWorld ω}
    (h : WantsBranch ((mutationStage name timeoutMs maxAttempts timing compensate execute).execute
      s).1) :
    ResultWantsBranch (execute s).1 := by
  obtain ⟨result, aborted, houtcome, hwants⟩ := h
  unfold mutationStage at houtcome
  dsimp only at houtcome
  split at houtcome
  · cases houtcome
  · cases houtcome
    exact hwants

theorem not_wantsBranch_failure {code message : String} {retriable : Bool}
    (hpush : code ≠ "PUSH_PREPARE_BRANCH_REQUIRED")
    (hcreate : code ≠ "PR_DRAFT_PREPARE_BRANCH_REQUIRED") :
    ¬ ResultWantsBranch (stageFailure code message retriable) := by
  rintro ⟨failure, hfailure, hcode⟩
  cases hfailure
  rcases hcode with h | h
  · exact hpush h
  · exact hcreate h

/-- With a branch in the context no stage wants one. -/
theorem IsMutationStage.not_wantsBranch
    {stage : RepoMutationStageDefinition (MutationWorld ω)} (h : IsMutationStage git branch stage)
    (hname : stage.name = .pushPrepare ∨ stage.name = .prDraftPrepare) {s : MutationWorld ω}
    {b : String} (hbranch : presentBranch s.context = some b) :
    ¬ WantsBranch (stage.execute s).1 := by
  unfold IsMutationStage at h
  rcases hname with hcase | hcase
  · simp only [hcase] at h
    obtain ⟨timeoutMs, maxAttempts, timing, compensate, rfl⟩ := h
    intro hwants
    have hresult := wantsBranch_mutationStage hwants
    unfold executePushPrepareStage at hresult
    simp only [hbranch] at hresult
    split at hresult
    · obtain ⟨failure, hfailure, -⟩ := hresult
      cases hfailure
    · exact not_wantsBranch_failure (by decide) (by decide) hresult
  · simp only [hcase] at h
    obtain ⟨timeoutMs, maxAttempts, timing, compensate, title, body, rfl⟩ := h
    intro hwants
    have hresult := wantsBranch_mutationStage hwants
    unfold executePrDraftPrepareStage at hresult
    simp only [hbranch] at hresult
    split at hresult
    · obtain ⟨failure, hfailure, -⟩ := hresult
      cases hfailure
    · exact not_wantsBranch_failure (by decide) (by decide) hresult

/-! ### The calls of a run -/

/-- The call is no success of `branch_prepare`. -/
def Quiet : StageCall (MutationWorld ω) → Prop
  | .executed name _ outcome => name = .branchPrepare → outcome.succeeded = false
  | .compensated .. => True

theorem agree_append {front back : List (StageCall (MutationWorld ω))}
    (hfront : ∀ call ∈ front, Quiet call) : Agree git branch (front ++ back) ↔ Agree git branch back := by
  induction front with
  | nil => rfl
  | cons call front ih =>
    obtain ⟨hcall, hrest⟩ := List.forall_mem_cons.mp hfront
    have htail := ih hrest
    cases call with
    | compensated name result => exact htail
    | executed name before outcome =>
      rw [List.cons_append, Agree, htail, and_iff_right_iff_imp]
      intro _ hname hsucceeded
      rw [hcall hname] at hsucceeded
      cases hsucceeded

theorem agree_of_quiet {calls : List (StageCall (MutationWorld ω))}
    (h : ∀ call ∈ calls, Quiet call) : Agree git branch calls := by
  have hall : Agree git branch (calls ++ []) := (agree_append h).mpr trivial
  rwa [List.append_nil] at hall

variable (git branch) in
/-- Where `branch_prepare` succeeds, the workspace was prepared for it. -/
def Meets (calls : List (StageCall (MutationWorld ω))) : Prop :=
  ∀ before outcome, .executed .branchPrepare before outcome ∈ calls → outcome.succeeded = true →
    Preparable git branch before

theorem meets_append {front back : List (StageCall (MutationWorld ω))}
    (hfront : ∀ call ∈ front, Quiet call) : Meets git branch (front ++ back) ↔ Meets git branch back := by
  constructor
  · exact fun h before outcome hmem => h before outcome (List.mem_append_right _ hmem)
  · intro h before outcome hmem hsucceeded
    rcases List.mem_append.mp hmem with hmem | hmem
    · have hquiet : outcome.succeeded = false := hfront _ hmem rfl
      rw [hquiet] at hsucceeded
      cases hsucceeded
    · exact h before outcome hmem hsucceeded

theorem meets_of_quiet {calls : List (StageCall (MutationWorld ω))}
    (h : ∀ call ∈ calls, Quiet call) : Meets git branch calls := by
  have hnil : Meets git branch [] := fun _ _ hmem => absurd hmem List.not_mem_nil
  have hall : Meets git branch (calls ++ []) := (meets_append h).mpr hnil
  rwa [List.append_nil] at hall

section Runs

variable {stage : RepoMutationStageDefinition (MutationWorld ω)}
  {stages : List (RepoMutationStageDefinition (MutationWorld ω))} {w : MutationWorld ω} {n : Nat}
  {clock : Nat → Int} {fuel : Nat} {s s' : Run (MutationWorld ω)}
  {answer : Except StageError RepoMutationPipelineResult}

theorem quiet_tries (hname : stage.name ≠ .branchPrepare) :
    ∀ call ∈ stage.tries w n, Quiet call := by
  intro call hcall
  obtain ⟨k, -, rfl⟩ := List.mem_map.mp hcall
  exact fun hbranch => absurd hbranch hname

theorem quiet_tries_of_retries (h : stage.Retries w n) : ∀ call ∈ stage.tries w n, Quiet call := by
  intro call hcall
  obtain ⟨k, hk, rfl⟩ := List.mem_map.mp hcall
  exact fun _ => StageOutcome.succeeded_eq_false (h k (List.mem_range.mp hk))

theorem quiet_compensation : ∀ call ∈ compensation stage, Quiet call := by
  intro call hcall
  unfold compensation at hcall
  split at hcall
  · rw [List.mem_singleton.mp hcall]
    trivial
  · cases hcall

theorem quiet_map (name : RepoMutationStageName) (results : List (Except StageError Unit)) :
    ∀ call ∈ results.map (.compensated name : _ → StageCall (MutationWorld ω)), Quiet call := by
  intro call hcall
  obtain ⟨result, -, rfl⟩ := List.mem_map.mp hcall
  trivial

/-- Attempts of which none succeeds, and compensations. -/
theorem quiet_failed (hretries : stage.Retries w n)
    (hfailed : (stage.outcomeAt w n).succeeded = false)
    {after : List (StageCall (MutationWorld ω))} (hafter : ∀ call ∈ after, Quiet call) :
    ∀ call ∈ stage.tries w (n + 1) ++ after, Quiet call := by
  intro call hcall
  rw [stage.tries_succ', List.append_assoc] at hcall
  rcases List.mem_append.mp hcall with hcall | hcall
  · exact quiet_tries_of_retries hretries call hcall
  · rcases List.mem_cons.mp hcall with rfl | hcall
    · exact fun _ => hfailed
    · exact hafter call hcall

theorem SameBranch.trans {s s' s'' : MutationWorld ω} (h : SameBranch branch s s')
    (h' : SameBranch branch s' s'') : SameBranch branch s s'' :=
  ⟨h'.1.trans h.1, h'.2.trans h.2⟩

theorem sameBranch_worldAfter (h : ∀ s, SameBranch branch s (stage.execute s).2) :
    SameBranch branch w (stage.worldAfter n w) := by
  induction n with
  | zero => exact ⟨rfl, rfl⟩
  | succ n ih =>
    rw [stage.worldAfter_succ']
    exact ih.trans (h _)

theorem actsOn_compensated {calls : List (StageCall (MutationWorld ω))} {b : String}
    (h : ∀ call ∈ calls, ∃ name result, call = .compensated name result) :
    ∀ call ∈ calls, ActsOn branch b call := by
  intro call hcall
  obtain ⟨name, result, rfl⟩ := h call hcall
  trivial

/-- The attempts of a stage that leaves the branch alone act on it. -/
theorem actsOn_tries (hstage : IsMutationStage git branch stage)
    (hsame : ∀ s, SameBranch branch s (stage.execute s).2) {b : String} (hne : b ≠ "")
    (h : OnBranch branch b w) : ∀ call ∈ stage.tries w n, ActsOn branch b call := by
  intro call hcall
  obtain ⟨k, -, rfl⟩ := List.mem_map.mp hcall
  intro hname
  have hon : OnBranch branch b (stage.worldAfter k w) := h.of_same (sameBranch_worldAfter hsame)
  have hpresent : presentBranch (stage.worldAfter k w).context = some b := by
    rw [presentBranch, hon.1, Option.filter_some, if_pos (decide_eq_true hne)]
  exact ⟨hon, hstage.not_wantsBranch hname hpresent⟩

/-- Stages other than `branch_prepare`: they act on the branch that the context names. -/
theorem calls_after_branch (htruthful : Truthful git branch)
    (hstages : ∀ stage ∈ stages, IsMutationStage git branch stage)
    (hnames : ∀ stage ∈ stages, stage.name ≠ .branchPrepare)
    (hrun : runStages clock fuel stages s = some (answer, s')) :
    ∃ new, s'.calls = s.calls ++ new ∧ (∀ call ∈ new, Quiet call) ∧
      ∀ b, b ≠ "" → OnBranch branch b s.world → ∀ call ∈ new, ActsOn branch b call := by
  induction stages generalizing s with
  | nil =>
    cases hrun
    have hnone : ∀ call, call ∉ ([] : List (StageCall (MutationWorld ω))) := fun _ => List.not_mem_nil
    exact ⟨[], (List.append_nil _).symm, fun call h => absurd h (hnone call),
      fun _ _ _ call h => absurd h (hnone call)⟩
  | cons stage rest ih =>
    have hstage := hstages stage List.mem_cons_self
    have hname := hnames stage List.mem_cons_self
    have hsame := hstage.sameBranch htruthful hname
    have hih {s : Run (MutationWorld ω)} := @ih s
      (fun stage hmem => hstages stage (List.mem_cons_of_mem _ hmem))
      (fun stage hmem => hnames stage (List.mem_cons_of_mem _ hmem))
    cases firstStage_of_runStages hrun with
    | skipped hlimit hrest => exact hih hrest
    | @passed n s₁ hlast hsucceeded hthen hrest =>
      obtain ⟨new, hcalls, hquiet, hacts⟩ := hih hrest
      refine ⟨stage.tries s.world (n + 1) ++ new, ?_, ?_, fun b hne hon => ?_⟩
      · rw [hcalls, hthen.calls_eq, List.append_assoc]
      · exact List.forall_mem_append.mpr ⟨quiet_tries hname, hquiet⟩
      · have hnext : OnBranch branch b s₁.world := by
          rw [hthen.world_eq]
          exact hon.of_same (sameBranch_worldAfter hsame)
        exact List.forall_mem_append.mpr ⟨actsOn_tries hstage hsame hne hon, hacts b hne hnext⟩
    | @stopped n hlast hfailed hcompensates hcalls hstopped =>
      refine ⟨_, hcalls, ?_, fun b hne hon => ?_⟩
      · exact List.forall_mem_append.mpr ⟨quiet_tries hname, quiet_compensation⟩
      · refine List.forall_mem_append.mpr ⟨actsOn_tries hstage hsame hne hon, ?_⟩
        refine actsOn_compensated fun call hcall => ?_
        unfold compensation at hcall
        split at hcall
        · exact ⟨_, _, List.mem_singleton.mp hcall⟩
        · cases hcall
    | @thrown n results hlast hfailed hthrows hcalls hend =>
      refine ⟨_, hcalls, ?_, fun b hne hon => ?_⟩
      · exact List.forall_mem_append.mpr ⟨quiet_tries hname, quiet_map _ _⟩
      · refine List.forall_mem_append.mpr ⟨actsOn_tries hstage hsame hne hon, ?_⟩
        refine actsOn_compensated fun call hcall => ?_
        obtain ⟨result, -, rfl⟩ := List.mem_map.mp hcall
        exact ⟨_, _, rfl⟩

/-- The name that a success of `branch_prepare` leaves in the context is not empty. -/
theorem ne_empty_of_onBranch {s : MutationWorld ω} {b : String}
    (hnone : s.context.branchName = none)
    (h : OnBranch branch b (executeBranchPrepareStage git s).2) : b ≠ "" := by
  have hprepared := branchPrepared git s
  generalize executeBranchPrepareStage git s = done at h hprepared
  have hname := h.1
  cases hprepared with
  | failed hok hcontext =>
    rw [hcontext, hnone] at hname
    cases hname
  | found hok hcurrent htarget =>
    rw [hnone] at hname
    cases hname
  | ensured hok hcurrent hother hensured =>
    have htarget : targetBranch s.context = b := Option.some.inj hname
    rw [targetBranch, hnone, Option.getD_none] at htarget
    rintro rfl
    have hlist := congrArg String.toList htarget
    rw [buildMutationBranchName_toList] at hlist
    cases hlist

/-- The stage `branch_prepare` does what its executor does. -/
structure RunsBranchPrepare (git : GitCallbacks ω)
    (stage : RepoMutationStageDefinition (MutationWorld ω)) : Prop where
  world_eq : ∀ s, (stage.execute s).2 = (executeBranchPrepareStage git s).2
  ok_of_succeeded : ∀ s, (stage.execute s).1.succeeded = true →
    (executeBranchPrepareStage git s).1.ok = true
  failed_of_retriable : ∀ s, (stage.execute s).1.retriable = true →
    (executeBranchPrepareStage git s).1.ok = false

theorem IsMutationStage.runsBranchPrepare (h : IsMutationStage git branch stage)
    (hname : stage.name = .branchPrepare) : RunsBranchPrepare git stage := by
  unfold IsMutationStage at h
  simp only [hname] at h
  obtain ⟨timeoutMs, maxAttempts, timing, compensate, rfl⟩ := h
  refine ⟨fun s => rfl, fun s hsucceeded => ?_, fun s hretriable => ?_⟩
  · unfold mutationStage at hsucceeded
    dsimp only at hsucceeded
    split at hsucceeded
    · cases hsucceeded
    · exact hsucceeded
  · have hfailed := StageOutcome.succeeded_eq_false hretriable
    unfold mutationStage at hretriable hfailed
    dsimp only at hretriable hfailed
    split at hfailed
    · next htiming =>
      rw [htiming] at hretriable
      cases hretriable
    · exact hfailed

/-- The attempts of `branch_prepare` that are tried again leave the context alone. -/
theorem context_worldAfter (hstage : RunsBranchPrepare git stage)
    (hretries : stage.Retries w n) : (stage.worldAfter n w).context = w.context := by
  induction n with
  | zero => rfl
  | succ n ih =>
    have hfailed := hstage.failed_of_retriable _ (hretries n n.lt_succ_self)
    have hkept := context_of_failed hfailed
    rw [stage.worldAfter_succ', hstage.world_eq, hkept]
    exact ih fun k hk => hretries k (hk.trans n.lt_succ_self)

/-- Calls of `branch_prepare` up to its success, before calls of other stages. -/
theorem agree_success (htruthful : Truthful git branch) (hstage : RunsBranchPrepare git stage)
    (hname : stage.name = .branchPrepare) (hnone : w.context.branchName = none)
    (hretries : stage.Retries w n) (hsucceeded : (stage.outcomeAt w n).succeeded = true)
    {later : List (StageCall (MutationWorld ω))} (hquiet : ∀ call ∈ later, Quiet call)
    (hacts : ∀ b, b ≠ "" → OnBranch branch b (stage.worldAfter (n + 1) w) →
      ∀ call ∈ later, ActsOn branch b call) :
    Agree git branch (stage.tries w (n + 1) ++ later) ↔
      Meets git branch (stage.tries w (n + 1) ++ later) := by
  have hbefore : (stage.worldAfter n w).context.branchName = none := by
    rw [context_worldAfter hstage hretries]
    exact hnone
  have hstep := executeBranchPrepareStage_agrees_iff htruthful hbefore
    (hstage.ok_of_succeeded _ hsucceeded)
  have hearlier := quiet_tries_of_retries hretries
  rw [stage.tries_succ', List.append_assoc, agree_append hearlier, meets_append hearlier]
  constructor
  · rintro ⟨hafter, -⟩ before outcome hmem hok
    rcases List.mem_cons.mp hmem with heq | hmem
    · obtain ⟨b, hon, -⟩ := hafter hname hsucceeded
      obtain ⟨-, hbeforeEq, -⟩ := StageCall.executed.inj heq
      rw [hbeforeEq]
      exact hstep.mp ⟨b, hon⟩
    · have hfailed : outcome.succeeded = false := hquiet _ hmem rfl
      rw [hfailed] at hok
      cases hok
  · intro hmeets
    refine ⟨fun _ _ => ?_, agree_of_quiet hquiet⟩
    have hpreparable : Preparable git branch (stage.worldAfter n w) := by
      refine hmeets _ (stage.outcomeAt w n) ?_ hsucceeded
      rw [← hname]
      exact List.mem_cons_self
    obtain ⟨b, hon⟩ := hstep.mpr hpreparable
    refine ⟨b, hon, hacts b (ne_empty_of_onBranch hbefore hon) ?_⟩
    rw [stage.worldAfter_succ', hstage.world_eq]
    exact hon

/-- **The stages of a run agree on the branch** exactly when each success of `branch_prepare` finds
the workspace prepared. -/
theorem agree_iff_meets (htruthful : Truthful git branch)
    (hstages : ∀ stage ∈ stages, IsMutationStage git branch stage)
    (hdistinct : (stages.map RepoMutationStageDefinition.name).Nodup)
    (hnone : s.world.context.branchName = none)
    (hrun : runStages clock fuel stages s = some (answer, s')) :
    ∃ new, s'.calls = s.calls ++ new ∧ (Agree git branch new ↔ Meets git branch new) := by
  induction stages generalizing s with
  | nil =>
    cases hrun
    exact ⟨[], (List.append_nil _).symm, iff_of_true trivial nofun⟩
  | cons stage rest ih =>
    have hstage := hstages stage List.mem_cons_self
    have hrest : ∀ stage ∈ rest, IsMutationStage git branch stage :=
      fun other hmem => hstages other (List.mem_cons_of_mem _ hmem)
    rw [List.map_cons, List.nodup_cons] at hdistinct
    have hquiet {calls : List (StageCall (MutationWorld ω))} (h : ∀ call ∈ calls, Quiet call) :
        Agree git branch calls ↔ Meets git branch calls :=
      iff_of_true (agree_of_quiet h) (meets_of_quiet h)
    have hfirst := firstStage_of_runStages hrun
    by_cases hname : stage.name = .branchPrepare
    · -- the other stages are not `branch_prepare`
      have hothers : ∀ other ∈ rest, other.name ≠ .branchPrepare := by
        intro other hother heq
        refine hdistinct.1 (List.mem_map.mpr ⟨other, hother, ?_⟩)
        rw [heq, hname]
      have hprepare := hstage.runsBranchPrepare hname
      cases hfirst with
      | skipped hlimit hnext =>
        obtain ⟨new, hcalls, hsilent, -⟩ :=
          calls_after_branch htruthful hrest hothers hnext
        exact ⟨new, hcalls, hquiet hsilent⟩
      | @passed n s₁ hlast hsucceeded hthen hnext =>
        obtain ⟨new, hcalls, hsilent, hacts⟩ :=
          calls_after_branch htruthful hrest hothers hnext
        rw [hthen.world_eq] at hacts
        refine ⟨stage.tries s.world (n + 1) ++ new, ?_,
          agree_success htruthful hprepare hname hnone hlast.retries hsucceeded hsilent hacts⟩
        rw [hcalls, hthen.calls_eq, List.append_assoc]
      | @stopped n hlast hfailed hcompensates hcalls hstopped =>
        exact ⟨_, hcalls, hquiet (quiet_failed hlast.retries hfailed quiet_compensation)⟩
      | @thrown n results hlast hfailed hthrows hcalls hend =>
        exact ⟨_, hcalls, hquiet (quiet_failed hlast.retries hfailed (quiet_map _ _))⟩
    · have hsame := hstage.sameBranch htruthful hname
      cases hfirst with
      | skipped hlimit hnext => exact ih hrest hdistinct.2 hnone hnext
      | @passed n s₁ hlast hsucceeded hthen hnext =>
        have hnone₁ : s₁.world.context.branchName = none := by
          rw [hthen.world_eq, (sameBranch_worldAfter hsame).1]
          exact hnone
        obtain ⟨new, hcalls, hiff⟩ := ih hrest hdistinct.2 hnone₁ hnext
        refine ⟨stage.tries s.world (n + 1) ++ new, ?_, ?_⟩
        · rw [hcalls, hthen.calls_eq, List.append_assoc]
        · rw [agree_append (quiet_tries hname), meets_append (quiet_tries hname)]
          exact hiff
      | @stopped n hlast hfailed hcompensates hcalls hstopped =>
        exact ⟨_, hcalls, hquiet (quiet_failed hlast.retries hfailed quiet_compensation)⟩
      | @thrown n results hlast hfailed hthrows hcalls hend =>
        exact ⟨_, hcalls, hquiet (quiet_failed hlast.retries hfailed (quiet_map _ _))⟩

end Runs

/-! ### The theorem -/

/-- **The branch of a mutation run**, where the callbacks do what they say: the generated name
satisfies the policy, differs from that of another run and task, and the stages agree on it, exactly
when the ids of another run and task have different words and `branch_prepare`, where it succeeds,
finds the workspace prepared. -/
theorem branches_agree_iff (git : GitCallbacks ω) (branch : ω → String)
    (htruthful : Truthful git branch)
    (stages : List (RepoMutationStageDefinition (MutationWorld ω)))
    (hstages : ∀ stage ∈ stages, IsMutationStage git branch stage)
    (hdistinct : (stages.map RepoMutationStageDefinition.name).Nodup)
    (w : MutationWorld ω) (hnone : w.context.branchName = none)
    (other : RepoMutationPipelineContext)
    {clock : Nat → Int} {fuel : Nat} {answer : Except StageError RepoMutationPipelineResult}
    {s : Run (MutationWorld ω)} (hrun : run clock fuel stages w = some (answer, s)) :
    (matchesBranchPolicy (buildMutationBranchName w.context) = true ∧
      ((other.runId, other.taskId) ≠ (w.context.runId, w.context.taskId) →
        buildMutationBranchName other ≠ buildMutationBranchName w.context) ∧
      Agree git branch s.calls) ↔
    ((other.runId, other.taskId) ≠ (w.context.runId, w.context.taskId) →
      branchWords other ≠ branchWords w.context) ∧ Meets git branch s.calls := by
  have hordered : ∀ stage ∈ orderedStages stages, IsMutationStage git branch stage :=
    fun stage hmem => hstages stage (List.mem_mergeSort.mp hmem)
  have hnames : ((orderedStages stages).map RepoMutationStageDefinition.name).Nodup :=
    ((List.mergeSort_perm stages _).map _).nodup_iff.mpr hdistinct
  obtain ⟨new, hcalls, hiff⟩ := agree_iff_meets htruthful hordered hnames hnone hrun
  obtain rfl : s.calls = new := hcalls
  rw [and_iff_right (matchesBranchPolicy_build w.context), hiff, ne_eq, ne_eq, ne_eq,
    buildMutationBranchName_eq_iff]

/-! A workspace that is known by the name of its branch. -/

/-- A name without blanks at its ends. -/
abbrev BranchName := { name : String // Text.trim name = name }

/-- Callbacks on such a workspace. -/
def plainGit : GitCallbacks BranchName where
  getCurrentBranch := some fun workspace => (.ok workspace.1, workspace)
  ensureBranch := some fun name workspace =>
    if h : Text.trim name = name then (.ok true, ⟨name, h⟩)
    else (.error (.error "not a valid branch name"), workspace)
  push := some fun _ name workspace => (.ok ("origin/" ++ name), workspace)
  createDraftPr := some fun _ _ _ _ workspace => (.ok (7, "/pull/7"), workspace)

theorem plainGit_truthful : Truthful plainGit Subtype.val where
  current := by
    intro getCurrentBranch hgiven workspace
    obtain rfl := Option.some.inj hgiven
    refine ⟨rfl, fun text htext => ?_⟩
    rw [← Except.ok.inj htext]
    exact workspace.2
  ensure := by
    intro ensureBranch hgiven name workspace created hcreated
    obtain rfl := Option.some.inj hgiven
    dsimp only at hcreated ⊢
    split at hcreated
    · next htrim => rw [dif_pos htrim]
    · cases hcreated
  push := by
    intro push hgiven path name workspace
    obtain rfl := Option.some.inj hgiven
    rfl
  createDraftPr := by
    intro createDraftPr hgiven path name title body workspace
    obtain rfl := Option.some.inj hgiven
    rfl

/-- The stage `branch_prepare` with these callbacks, in time. -/
def plainBranchPrepare : RepoMutationStageDefinition (MutationWorld BranchName) :=
  mutationStage .branchPrepare 500 (.finite 1) (fun _ => some false) none
    (executeBranchPrepareStage plainGit)

/-- The stage `push_prepare`. -/
def plainPushPrepare : RepoMutationStageDefinition (MutationWorld BranchName) :=
  mutationStage .pushPrepare 500 (.finite 1) (fun _ => some false) none
    (executePushPrepareStage plainGit)

/-- The stage `pr_draft_prepare`. -/
def plainPrDraftPrepare : RepoMutationStageDefinition (MutationWorld BranchName) :=
  mutationStage .prDraftPrepare 500 (.finite 1) (fun _ => some false) none
    (executePrDraftPrepareStage plainGit "Add the docs" "")

/-- The stages of a run, as they are given. -/
def plainStages : List (RepoMutationStageDefinition (MutationWorld BranchName)) :=
  [plainPrDraftPrepare, plainPushPrepare, plainBranchPrepare]

/-- A context without a branch, in a workspace on the branch `name`. -/
def plainWorld (name : BranchName) : MutationWorld BranchName where
  context := { runId := "run", taskId := "task", workspacePath := "/w" }
  workspace := name

/-- A workspace on the main branch. -/
def onMain : MutationWorld BranchName := plainWorld ⟨"main", by decide⟩

theorem plain_isMutationStage :
    ∀ stage ∈ plainStages, IsMutationStage plainGit Subtype.val stage := by
  have hpr : IsMutationStage plainGit Subtype.val plainPrDraftPrepare :=
    ⟨500, .finite 1, fun _ => some false, none, "Add the docs", "", rfl⟩
  have hpush : IsMutationStage plainGit Subtype.val plainPushPrepare :=
    ⟨500, .finite 1, fun _ => some false, none, rfl⟩
  have hprepare : IsMutationStage plainGit Subtype.val plainBranchPrepare :=
    ⟨500, .finite 1, fun _ => some false, none, rfl⟩
  refine List.forall_mem_cons.mpr ⟨hpr, List.forall_mem_cons.mpr ⟨hpush, ?_⟩⟩
  exact List.forall_mem_singleton.mpr hprepare

/-- The run prepares the branch first, whatever the order the stages are given in. -/
theorem run_plainStages (w : MutationWorld BranchName) :
    run (fun _ => 0) 1 plainStages w =
      runStages (fun _ => 0) 1 plainStages.reverse { world := w } := by
  have hsorted : plainStages.reverse.Pairwise fun a b => a.name.index < b.name.index := by
    decide
  rw [run, orderedStages_of_perm (List.reverse_perm plainStages).symm hsorted]

/-- From the main branch the run creates its branch, pushes it and drafts the pull request for it,
and all agree on it. -/
theorem branches_agree_iff_created : ∃ answer s before before' outcome outcome' outcome'',
    run (fun _ => 0) 1 plainStages onMain = some (answer, s) ∧
      s.calls = [.executed .branchPrepare onMain outcome, .executed .pushPrepare before outcome',
        .executed .prDraftPrepare before' outcome''] ∧
      OnBranch Subtype.val "mutation/run-task" before ∧
      OnBranch Subtype.val "mutation/run-task" before' ∧
      outcome'.succeeded = true ∧ outcome''.succeeded = true ∧
      matchesBranchPolicy (buildMutationBranchName onMain.context) = true ∧
      buildMutationBranchName { onMain.context with taskId := "docs" } ≠
        buildMutationBranchName onMain.context ∧
      Agree plainGit Subtype.val s.calls := by
  have hrun : ∃ answer s before before' outcome outcome' outcome'',
      runStages (fun _ => 0) 1 plainStages.reverse { world := onMain } = some (answer, s) ∧
        s.calls = [.executed .branchPrepare onMain outcome, .executed .pushPrepare before outcome',
          .executed .prDraftPrepare before' outcome''] ∧
        OnBranch Subtype.val "mutation/run-task" before ∧
        OnBranch Subtype.val "mutation/run-task" before' ∧
        outcome'.succeeded = true ∧ outcome''.succeeded = true :=
    ⟨_, _, _, _, _, _, _, rfl, rfl, ⟨rfl, rfl⟩, ⟨rfl, rfl⟩, rfl, rfl⟩
  obtain ⟨answer, s, before, before', outcome, outcome', outcome'', hrun, hcalls, hpushed,
    hdrafted, hok, hok'⟩ := hrun
  rw [← run_plainStages] at hrun
  have hmeets : Meets plainGit Subtype.val s.calls := by
    intro start done hmem _
    -- the one call of `branch_prepare` starts on the main branch
    have hstart : start = onMain := by
      rw [hcalls] at hmem
      rcases List.mem_cons.mp hmem with heq | hmem
      · obtain ⟨-, hstart, -⟩ := StageCall.executed.inj heq
        exact hstart
      · rcases List.mem_cons.mp hmem with heq | hmem
        · cases heq
        · cases List.mem_singleton.mp hmem
    have hother : ¬ (onMain.workspace.1 = targetBranch onMain.context) := by decide
    rw [hstart, Preparable, if_neg hother]
    rfl
  obtain ⟨hpolicy, hdiffers, hagree⟩ := (branches_agree_iff plainGit Subtype.val plainGit_truthful
    plainStages plain_isMutationStage (by decide) onMain rfl
    { onMain.context with taskId := "docs" } hrun).mpr ⟨fun _ => by decide, hmeets⟩
  exact ⟨answer, s, before, before', outcome, outcome', outcome'', hrun, hcalls, hpushed, hdrafted,
    hok, hok', hpolicy, hdiffers (by decide), hagree⟩

/-! A workspace that is on its branch already. -/

/-- A workspace on the branch of the run. -/
def onTarget : MutationWorld BranchName := plainWorld ⟨"mutation/run-task", by decide⟩

/-- Two runs and tasks get one branch, and a run whose workspace is on its branch already leaves
the context without a name: its push asks for one. -/
theorem branches_disagree :
    buildMutationBranchName { onMain.context with runId := "a-b", taskId := "c" } =
      buildMutationBranchName { onMain.context with runId := "a", taskId := "b-c" } ∧
    ∃ answer s before outcome outcome', run (fun _ => 0) 1 plainStages onTarget = some (answer, s) ∧
      s.calls = [.executed .branchPrepare onTarget outcome, .executed .pushPrepare before outcome'] ∧
      outcome.succeeded = true ∧ WantsBranch outcome' ∧ ¬ Agree plainGit Subtype.val s.calls := by
  refine ⟨by decide, ?_⟩
  have hrun : ∃ answer s before outcome outcome',
      runStages (fun _ => 0) 1 plainStages.reverse { world := onTarget } = some (answer, s) ∧
        s.calls = [.executed .branchPrepare onTarget outcome,
          .executed .pushPrepare before outcome'] ∧
        outcome.succeeded = true ∧ WantsBranch outcome' :=
    ⟨_, _, _, _, _, rfl, rfl, rfl, _, _, rfl, _, rfl, .inl rfl⟩
  obtain ⟨answer, s, before, outcome, outcome', hrun, hcalls, hsucceeded, hwants⟩ := hrun
  rw [← run_plainStages] at hrun
  refine ⟨answer, s, before, outcome, outcome', hrun, hcalls, hsucceeded, hwants, fun hagree => ?_⟩
  rw [hcalls] at hagree
  obtain ⟨b, hon, -⟩ := hagree.1 rfl hsucceeded
  cases hon.1

end RepoMutationPipeline

end AiOrchestrator
