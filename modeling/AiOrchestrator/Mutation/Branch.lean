import AiOrchestrator.Lib.Words
import AiOrchestrator.Mutation.Pipeline

/-!
# The branch of a mutation run

The stages that share `context.branchName` (`packages/execution/src/mutation/stages`):
`branch_prepare` builds the name of the branch and puts the workspace on it, `push_prepare` pushes
it, and `pr_draft_prepare` opens a pull request for it. Each talks to git through callbacks that its
caller may leave out; what the callbacks see and change, the workspace and the remote, is an `ω`.
-/

namespace AiOrchestrator

structure RepoMutationPipelineContext where
  runId : String
  taskId : String
  workspacePath : String
  branchName : Option String := none
deriving DecidableEq, Repr

/-! ### Branch names -/

/-- `[a-z0-9]`. -/
def isBranchChar (c : Char) : Bool := ('a' ≤ c && c ≤ 'z') || ('0' ≤ c && c ≤ '9')

/-- `sanitizeBranchToken`. -/
def sanitizeBranchToken (value : String) : String :=
  let token := String.ofList
    (Words.strip '-' (Words.collapse isBranchChar '-' false (Text.lowerCase value).toList))
  if token = "" then "unknown" else token

/-- `buildMutationBranchName`. -/
def buildMutationBranchName (context : RepoMutationPipelineContext) : String :=
  let runPart := sanitizeBranchToken context.runId
  let taskPart := sanitizeBranchToken context.taskId
  "mutation/" ++ runPart ++ "-" ++ taskPart

/-- `BRANCH_REGEX.test(name)`. -/
def matchesBranchPolicy (name : String) : Bool :=
  match List.dropPrefix? name.toList "mutation/".toList with
  | some (first :: rest) => isBranchChar first && rest.all fun c => isBranchChar c || c == '-'
  | some [] | none => false

/-! ### Callbacks -/

/-- What the stages see and change. -/
structure MutationWorld (ω : Type) where
  context : RepoMutationPipelineContext
  workspace : ω

/-- The callbacks to git, with errors as answers. -/
structure GitCallbacks (ω : Type) where
  getCurrentBranch : Option (ω → Except StageError String × ω) := none
  ensureBranch : Option ((branchName : String) → ω → Except StageError Bool × ω) := none
  push : Option ((workspacePath branchName : String) → ω → Except StageError String × ω) := none
  createDraftPr : Option ((workspacePath branchName title body : String) → ω →
    Except StageError (Nat × String) × ω) := none

/-- `error instanceof Error ? error.message : fallback`. -/
def StageError.messageOr (fallback : String) : StageError → String
  | other => fallback
  | error message => message
  | timeout stage timeoutMs => (timeout stage timeoutMs).message

/-- `await callback?.(...)`. -/
def callIfGiven {ω α : Type} (callback : Option (ω → Except StageError α × ω)) (workspace : ω) :
    Except StageError (Option α) × ω :=
  match callback with
  | none => (.ok none, workspace)
  | some call => ((call workspace).1.map some, (call workspace).2)

/-- A result that reports a failure. -/
def stageFailure (code message : String) (retriable : Bool) : RepoMutationStageResult where
  ok := false
  failure := some { code, message, retriable }

/-! ### Stages -/

section Stages

variable {ω : Type} (git : GitCallbacks ω)

/-- The branch that `branch_prepare` aims at. -/
def targetBranch (context : RepoMutationPipelineContext) : String :=
  context.branchName.getD (buildMutationBranchName context)

/-- `ensureBranch` and what follows it. -/
def ensureTargetBranch (target : String) (s : MutationWorld ω) :
    RepoMutationStageResult × MutationWorld ω :=
  match callIfGiven (git.ensureBranch.map (· target)) s.workspace with
  | (.error error, workspace) =>
    (stageFailure "BRANCH_PREPARE_FAILED" (error.messageOr "Unknown branch prepare failure") true,
      { s with workspace })
  | (.ok ensured, workspace) =>
    ({ ok := true
       notes := some (if ensured = some false then "branch_prepare_checked_out_existing"
        else "branch_prepare_created")
       metadata := some [("branchName", target),
        ("branchAction", if ensured = some false then "checkout_existing" else "created")] },
      { context := { s.context with branchName := some target }, workspace })

/-- `executeBranchPrepareStage`. -/
def executeBranchPrepareStage (s : MutationWorld ω) : RepoMutationStageResult × MutationWorld ω :=
  let target := targetBranch s.context
  if matchesBranchPolicy target = false then
    (stageFailure "BRANCH_POLICY_INVALID" ("Branch name does not match policy: " ++ target) false,
      s)
  else
    match callIfGiven git.getCurrentBranch s.workspace with
    | (.error error, workspace) =>
      (stageFailure "BRANCH_PREPARE_FAILED" (error.messageOr "Unknown branch prepare failure") true,
        { s with workspace })
    | (.ok currentBranch, workspace) =>
      if currentBranch.map Text.trim = some target then
        ({ ok := true
           notes := some "branch_prepare_already_on_target"
           metadata := some [("branchName", target), ("branchAction", "noop")] },
          { s with workspace })
      else
        ensureTargetBranch git target { s with workspace }

/-- `!context.branchName` is false. -/
def presentBranch (context : RepoMutationPipelineContext) : Option String :=
  context.branchName.filter (· ≠ "")

/-- `executePushPrepareStage`. -/
def executePushPrepareStage (s : MutationWorld ω) : RepoMutationStageResult × MutationWorld ω :=
  match presentBranch s.context with
  | none =>
    (stageFailure "PUSH_PREPARE_BRANCH_REQUIRED" "Branch name is required for push_prepare stage"
      false, s)
  | some branchName =>
    let push := git.push.getD fun _ _ workspace =>
      (.error (.error "Push executor is not configured"), workspace)
    match push s.context.workspacePath branchName s.workspace with
    | (.ok remoteRef, workspace) =>
      ({ ok := true
         notes := some "git_push_completed"
         metadata := some [("branchName", branchName), ("remoteRef", remoteRef)] },
        { s with workspace })
    | (.error error, workspace) =>
      (stageFailure "PUSH_PREPARE_FAILED" (error.messageOr "Unknown push prepare failure") true,
        { s with workspace })

/-- `executePrDraftPrepareStage`. -/
def executePrDraftPrepareStage (title body : String) (s : MutationWorld ω) :
    RepoMutationStageResult × MutationWorld ω :=
  match presentBranch s.context with
  | none =>
    (stageFailure "PR_DRAFT_PREPARE_BRANCH_REQUIRED"
      "Branch name is required for pr_draft_prepare stage" false, s)
  | some branchName =>
    let createDraftPr := git.createDraftPr.getD fun _ _ _ _ workspace =>
      (.error (.error "PR draft executor is not configured"), workspace)
    match createDraftPr s.context.workspacePath branchName title body s.workspace with
    | (.ok (prNumber, prUrl), workspace) =>
      ({ ok := true
         notes := some "draft_pr_created"
         metadata := some [("branchName", branchName), ("prNumber", toString prNumber),
          ("prUrl", prUrl)] },
        { s with workspace })
    | (.error error, workspace) =>
      (stageFailure "PR_DRAFT_PREPARE_FAILED"
        (error.messageOr "Unknown pr draft prepare failure") true, { s with workspace })

/-- A stage whose executor is one of these functions; `timing` is what the timer does: it fires
first, or else the signal may have fired when the executor settles. -/
def mutationStage (name : RepoMutationStageName) (timeoutMs : Nat) (maxAttempts : Number)
    (timing : MutationWorld ω → Option Bool)
    (compensate : Option (MutationWorld ω → Except StageError Unit × MutationWorld ω))
    (execute : MutationWorld ω → RepoMutationStageResult × MutationWorld ω) :
    RepoMutationStageDefinition (MutationWorld ω) where
  name
  timeoutMs
  maxAttempts
  execute s := (match timing s with
    | none => .timedOut
    | some aborted => .settled (.ok (execute s).1) aborted, (execute s).2)
  compensate

end Stages

/-! ### The words of a name -/

/-- The words of an id that make its part of a branch name: the maximal runs of letters and digits
of the id in lower case, or `unknown` where there is none. -/
def tokenWords (value : String) : List (List Char) :=
  let words := Words.words isBranchChar (Text.lowerCase value).toList
  if words = [] then ["unknown".toList] else words

/-- The words of a branch name. -/
def branchWords (context : RepoMutationPipelineContext) : List (List Char) :=
  tokenWords context.runId ++ tokenWords context.taskId

theorem tokenWords_ne_nil (value : String) : tokenWords value ≠ [] := by
  unfold tokenWords
  dsimp only
  split
  · exact List.cons_ne_nil _ _
  · assumption

theorem tokenWords_spec {value : String} {word : List Char} (h : word ∈ tokenWords value) :
    word ≠ [] ∧ ∀ c ∈ word, isBranchChar c = true := by
  unfold tokenWords at h
  dsimp only at h
  split at h
  · rw [List.mem_singleton.mp h]
    have hall : "unknown".toList.all isBranchChar = true := by decide
    exact ⟨by decide, List.all_eq_true.mp hall⟩
  · exact Words.words_spec h

theorem branchWords_spec {context : RepoMutationPipelineContext} {word : List Char}
    (h : word ∈ branchWords context) : word ≠ [] ∧ ∀ c ∈ word, isBranchChar c = true := by
  rcases List.mem_append.mp h with h | h <;> exact tokenWords_spec h

/-- A part of a branch name is the words of its id with separators between them. -/
theorem sanitizeBranchToken_toList (value : String) :
    (sanitizeBranchToken value).toList = ['-'].intercalate (tokenWords value) := by
  have hsep : isBranchChar '-' = false := by decide
  unfold sanitizeBranchToken tokenWords
  dsimp only
  rw [Words.strip_collapse hsep]
  by_cases hwords : Words.words isBranchChar (Text.lowerCase value).toList = []
  · have hempty : String.ofList (['-'].intercalate []) = "" := rfl
    rw [hwords, if_pos hempty, if_pos rfl]
    rfl
  · have hne : String.ofList (['-'].intercalate
        (Words.words isBranchChar (Text.lowerCase value).toList)) ≠ "" := by
      obtain ⟨word, others, hcons⟩ := List.exists_cons_of_ne_nil hwords
      intro hempty
      have hnil := congrArg String.toList hempty
      rw [String.toList_ofList, hcons, Words.intercalate_cons] at hnil
      have hword : word ∈ Words.words isBranchChar (Text.lowerCase value).toList := by
        rw [hcons]
        exact List.mem_cons_self
      exact (Words.words_spec hword).1 (List.append_eq_nil_iff.mp hnil).1
    rw [if_neg hne, if_neg hwords, String.toList_ofList]

/-- A branch name is the prefix and the words of the two ids. -/
theorem buildMutationBranchName_toList (context : RepoMutationPipelineContext) :
    (buildMutationBranchName context).toList =
      "mutation/".toList ++ ['-'].intercalate (branchWords context) := by
  unfold buildMutationBranchName branchWords
  dsimp only
  rw [Words.intercalate_append (tokenWords_ne_nil _) (tokenWords_ne_nil _)]
  have hdash : "-".toList = ['-'] := rfl
  simp only [String.toList_append, sanitizeBranchToken_toList, hdash, List.append_assoc,
    List.cons_append, List.nil_append]

/-- **The generated name satisfies the branch policy.** -/
theorem matchesBranchPolicy_build (context : RepoMutationPipelineContext) :
    matchesBranchPolicy (buildMutationBranchName context) = true := by
  have hspec : ∀ word ∈ branchWords context, word ≠ [] ∧ ∀ c ∈ word, isBranchChar c = true :=
    fun _ => branchWords_spec
  have hne : branchWords context ≠ [] :=
    fun hnil => tokenWords_ne_nil _ (List.append_eq_nil_iff.mp hnil).1
  obtain ⟨word, others, hwords⟩ := List.exists_cons_of_ne_nil hne
  rw [hwords] at hspec
  obtain ⟨hword, hkept⟩ := hspec word List.mem_cons_self
  obtain ⟨first, rest, rfl⟩ := List.exists_cons_of_ne_nil hword
  have hprefix := List.dropPrefix?_append_of_beq
    (['-'].intercalate (branchWords context)) (beq_self_eq_true "mutation/".toList)
  unfold matchesBranchPolicy
  rw [buildMutationBranchName_toList, hprefix, hwords, Words.intercalate_cons, List.cons_append]
  dsimp only
  rw [hkept first List.mem_cons_self, Bool.true_and, List.all_eq_true]
  intro c hc
  rw [Bool.or_eq_true, beq_iff_eq]
  rcases List.mem_append.mp hc with hc | hc
  · exact .inl (hkept c (List.mem_cons_of_mem _ hc))
  · obtain ⟨other, hother, hmem⟩ := List.mem_flatMap.mp hc
    rcases List.mem_cons.mp hmem with rfl | hmem
    · exact .inr rfl
    · exact .inl ((hspec other (List.mem_cons_of_mem _ hother)).2 c hmem)

/-- **Names tell the words of the ids apart**, and nothing else of them. -/
theorem buildMutationBranchName_eq_iff (context other : RepoMutationPipelineContext) :
    buildMutationBranchName context = buildMutationBranchName other ↔
      branchWords context = branchWords other := by
  have hsep : isBranchChar '-' = false := by decide
  constructor
  · intro h
    have hlist := congrArg String.toList h
    rw [buildMutationBranchName_toList, buildMutationBranchName_toList] at hlist
    exact Words.intercalate_injective hsep (fun _ => branchWords_spec) (fun _ => branchWords_spec)
      (List.append_cancel_left hlist)
  · intro h
    apply String.toList_inj.mp
    rw [buildMutationBranchName_toList, buildMutationBranchName_toList, h]

end AiOrchestrator
