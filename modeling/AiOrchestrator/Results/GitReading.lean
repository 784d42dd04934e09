import AiOrchestrator.Execution.RiskyPaths
import AiOrchestrator.Results.Runs

/-!
# Reading the output of git

What the program concludes from the output of the git commands that it reads line by line.
The risk of a commit is reported as its paths demand exactly when the commit could be read and
its paths show what they concern (`CommitRead.Shows`): the program finds the name of a
directory only below another directory, the name of a file only where git prints the path
without quotes, and takes a commit that it could not read for one without changes.
-/

namespace AiOrchestrator

/-! ### The risk of a commit -/

namespace CommitRead

/-- What has to be reported of a commit: the actions on security, on the production
configuration and on the public interface exactly where a path concerns them, a deletion
exactly where a path was deleted, and something in any case when the commit could not be
read. -/
def Classified (actions : List ApprovalRequestedAction) : CommitRead → Prop
  | .shown changes =>
    (.securityAuthChange ∈ actions ↔
      ∃ change ∈ changes, RiskRule.security.Concerns change.path) ∧
    (.productionConfigChange ∈ actions ↔
      ∃ change ∈ changes, RiskRule.production.Concerns change.path) ∧
    (.apiBreakingChange ∈ actions ↔ ∃ change ∈ changes, RiskRule.api.Concerns change.path) ∧
    (.fileDelete ∈ actions ↔ ∃ change ∈ changes, change.status = .deleted)
  | .failed _ => actions ≠ []

/-- A rule whose paths show it: where a path concerns the action one shows it, and where one
shows it a path concerns the action. -/
def ShowsRule (git : GitQuoting) (rule : RiskRule) (changes : List PathChange) : Prop :=
  (∃ change ∈ changes, rule.Shown git change.path) ↔
    ∃ change ∈ changes, rule.Concerns change.path

instance (git : GitQuoting) (rule : RiskRule) (changes : List PathChange) :
    Decidable (ShowsRule git rule changes) :=
  inferInstanceAs (Decidable (_ ↔ _))

/-- A commit that was read, whose paths show what they concern, and among whose deleted paths,
if there are any, is one that has more to it than blanks; or a commit that was not read where
any number of files is a bulk of files. -/
def Shows (git : GitQuoting) (bulkFileThreshold : Nat) : CommitRead → Prop
  | .shown changes =>
    (ShowsRule git .security changes ∧ ShowsRule git .production changes ∧
      ShowsRule git .api changes) ∧
    ((∃ change ∈ changes, change.status = .deleted) →
      ∃ change ∈ changes, change.status = .deleted ∧
        ¬ (git.Plain change.path.chars ∧ Text.isBlank change.path.text = true))
  | .failed _ => bulkFileThreshold = 0

/-- A rule that the program reads off the printed paths. -/
theorem exists_seen_iff (git : GitQuoting) {rule : RiskRule} (hblank : rule.fileName "" = false)
    (changes : List PathChange) :
    (∃ change ∈ changes, git.seenPath change.path ≠ "" ∧ rule.Shown git change.path) ↔
      ∃ change ∈ changes, rule.Shown git change.path :=
  exists_congr fun _ => and_congr_right fun _ =>
    ⟨And.right, fun h => ⟨git.seenPath_ne_empty_of_shown hblank h, h⟩⟩

/-- **What is reported of a commit is what has to be** exactly when the paths show it. -/
theorem classified_detectRiskyActions_iff (read : CommitRead) (git : GitQuoting)
    (threshold : Nat) :
    read.Classified (detectRiskyActions threshold (read.lines git)) ↔ read.Shows git threshold := by
  cases read with
  | failed error =>
    show detectRiskyActions threshold [] ≠ [] ↔ threshold = 0
    rcases Nat.eq_zero_or_pos threshold with rfl | hpos
    · have hbulk : detectRiskyActions 0 [] = [.bulkFileChange] := by decide
      simp [hbulk]
    · have hnot : ¬ threshold ≤ 0 := by omega
      simp [detectRiskyActions, hnot]
      omega
  | shown changes =>
    have hdelete : (∃ change ∈ changes, git.seenPath change.path ≠ "" ∧
        change.status = .deleted) ↔ ∃ change ∈ changes, change.status = .deleted ∧
          ¬ (git.Plain change.path.chars ∧ Text.isBlank change.path.text = true) := by
      refine exists_congr fun change => and_congr_right fun _ => ?_
      rw [and_comm, ne_eq, git.seenPath_eq_empty_iff]
    rw [Classified, lines, git.mem_detectRiskyActions_iff (by simp),
      git.mem_detectRiskyActions_iff (by simp), git.mem_detectRiskyActions_iff (by simp),
      git.mem_detectRiskyActions_iff (by simp)]
    simp only [mem_riskyActionsOfPath_security, mem_riskyActionsOfPath_production,
      mem_riskyActionsOfPath_api, mem_riskyActionsOfPath_delete]
    rw [exists_seen_iff git (by decide), exists_seen_iff git (by decide),
      exists_seen_iff git (by decide), hdelete]
    constructor
    · rintro ⟨hsecurity, hproduction, hapi, hdeleted⟩
      exact ⟨⟨hsecurity, hproduction, hapi⟩, hdeleted.mpr⟩
    · rintro ⟨⟨hsecurity, hproduction, hapi⟩, hdeleted⟩
      refine ⟨hsecurity, hproduction, hapi, ?_, hdeleted⟩
      rintro ⟨change, hchange, hstatus, -⟩
      exact ⟨change, hchange, hstatus⟩

end CommitRead

namespace Runtime

variable {S : Type}

/-- The lines that the program reads of a commit. -/
theorem exec_readCommitNameStatus (git : GitQuoting) (handle : (o : Op) → S → o.Ans × S) (s : S)
    (root commitSha : String) (read : CommitRead)
    (hread : (handle (.git (.showNameStatus root commitSha)) s).1 = read.answer git) :
    ((readCommitNameStatus root commitSha).exec handle s).1 =
      .ok (read.lines git) := by
  rw [readCommitNameStatus, Act.exec_bind, exec_tryGit]
  simp only []
  rw [hread]
  cases read <;> rfl

/-- **The risk of a commit**, whatever the surroundings answer to its reading: it is reported
as the paths demand exactly when they show what they concern. -/
theorem risk_classified_iff (rt : Runtime) (git : GitQuoting)
    (handle : (o : Op) → S → o.Ans × S) (s : S) (root commitSha : String) (read : CommitRead)
    (hread : (handle (.git (.showNameStatus root commitSha)) s).1 = read.answer git) :
    (∃ actions, ((rt.detectRiskyActionsFromCommit root commitSha).exec handle s).1 =
      .ok actions ∧ read.Classified actions) ↔ read.Shows git rt.bulkFileThreshold := by
  have hlines := exec_readCommitNameStatus git handle s root commitSha read hread
  have hactions : ∀ actions, ((rt.detectRiskyActionsFromCommit root commitSha).exec handle s).1 =
      .ok actions ↔ actions = detectRiskyActions rt.bulkFileThreshold (read.lines git) := by
    intro actions
    rw [detectRiskyActionsFromCommit, Act.exec_bind]
    revert hlines
    rcases (readCommitNameStatus root commitSha).exec handle s with ⟨answer, s'⟩
    intro hanswer
    subst hanswer
    simp [eq_comm]
  simp only [hactions, exists_eq_left]
  exact read.classified_detectRiskyActions_iff git rt.bulkFileThreshold

/-! A small repository. -/

/-- Surroundings in which the commands of git print a text. -/
def printing (text : String) (o : Op) (w : World) : o.Ans × World :=
  Op.handle sampleHost { sampleAnswer "" o w with text := text } o w

/-- A file in a directory of the root. -/
def loginPath : RepoPath where
  directories := ["auth"]
  name := "login.ts"
  segments_wellFormed := by decide

/-- A file in a directory below another one. -/
def nestedLoginPath : RepoPath where
  directories := ["src", "auth"]
  name := "login.ts"
  segments_wellFormed := by decide

/-- A commit that changes one file. -/
def oneFileCommit (path : RepoPath) : CommitRead := .shown [{ status := .modified, path }]

/-- `src/auth/login.ts`: the change is reported. -/
theorem risk_classified_nested :
    ∃ actions, ((sampleRuntime.detectRiskyActionsFromCommit "/w" "c1").exec
      (printing "M\tsrc/auth/login.ts\n") (sampleWorld ProjectState.oneTask)).1 = .ok actions ∧
      (oneFileCommit nestedLoginPath).Classified actions := by
  have hprinted : "M\tsrc/auth/login.ts\n" =
      GitQuoting.standard.nameStatus [{ status := .modified, path := nestedLoginPath }] := by
    decide
  refine (sampleRuntime.risk_classified_iff .standard _ _ _ _ (oneFileCommit nestedLoginPath)
    (congrArg Except.ok hprinted)).mpr ?_
  show (_ ∧ _ ∧ _) ∧ (_ → _)
  decide

/-- `auth/login.ts`: the change of a file of a directory in the root is not reported, although
the path concerns the action on security. -/
theorem root_directory_unreported :
    (printing "M\tauth/login.ts\n" (.git (.showNameStatus "/w" "c1"))
      (sampleWorld ProjectState.oneTask)).1 = (oneFileCommit loginPath).answer .standard ∧
    ¬ ∃ actions, ((sampleRuntime.detectRiskyActionsFromCommit "/w" "c1").exec
      (printing "M\tauth/login.ts\n") (sampleWorld ProjectState.oneTask)).1 = .ok actions ∧
      (oneFileCommit loginPath).Classified actions := by
  have hnone : ((sampleRuntime.detectRiskyActionsFromCommit "/w" "c1").exec
      (printing "M\tauth/login.ts\n") (sampleWorld ProjectState.oneTask)).1 = .ok [] := by
    decide
  have hprinted : "M\tauth/login.ts\n" =
      GitQuoting.standard.nameStatus [{ status := .modified, path := loginPath }] := by
    decide
  refine ⟨congrArg Except.ok hprinted, ?_⟩
  rintro ⟨actions, hactions, hclassified⟩
  rw [hnone] at hactions
  have hempty : actions = [] := (Except.ok.inj hactions).symm
  subst hempty
  have hmem := hclassified.1.mpr ⟨_, List.mem_singleton_self _, Or.inl ⟨"auth", by decide⟩⟩
  cases hmem

end Runtime

end AiOrchestrator
