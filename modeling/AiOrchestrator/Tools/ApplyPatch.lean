import AiOrchestrator.Core.Errors
import AiOrchestrator.Execution.GitOutput
import AiOrchestrator.Lib.Prog
import AiOrchestrator.Mutation.Pipeline

/-!
# Patches

`applyPatch` (`packages/tools/src/patch/apply-patch.ts`) and the stage `change_apply` that calls it
(`packages/execution/src/mutation/stages/change-apply.ts`), as programs over the calls that they
await: a temporary directory, the patch file in it, `git apply --index`, the listing of the staged
files, and the removal of the directory.
-/

namespace AiOrchestrator

/-! ### Errors -/

inductive ApplyPatchCode
  | patchTextEmpty | patchApplyFailed | patchCancelled
deriving DecidableEq, Repr

namespace ApplyPatchCode

def text : ApplyPatchCode → String
  | patchTextEmpty => "PATCH_TEXT_EMPTY"
  | patchApplyFailed => "PATCH_APPLY_FAILED"
  | patchCancelled => "PATCH_CANCELLED"

end ApplyPatchCode

structure ApplyPatchDiagnostics where
  changedFiles : List String
  command : String
  stderr : Option String := none
  stdout : Option String := none
deriving DecidableEq, Repr

/-- What a call to the system throws: whether it is an `Error` that says `AbortError`, its message
if it is an `Error`, and the output of a command that failed. -/
structure SystemError where
  isAbort : Bool := false
  message : Option String := none
  stdout : Option String := none
  stderr : Option String := none
deriving DecidableEq, Repr

/-- What `applyPatch` throws: an `ApplyPatchError`, or what a call to the system threw. -/
inductive PatchError
  | applyPatch (code : ApplyPatchCode) (message : String) (diagnostics : ApplyPatchDiagnostics)
  | system (error : SystemError)
deriving DecidableEq, Repr

/-- The fields of a thrown value that a `catch` block reads. -/
def PatchError.read : PatchError → SystemError
  | applyPatch _ message _ => { message := some message }
  | system error => error

/-! ### Calls -/

structure CommandOutput where
  stdout : String
  stderr : String
deriving DecidableEq, Repr

inductive PatchCall
  | mkdtemp
  | writeFile (path text : String)
  /-- `git apply --whitespace=nowarn --recount --verbose --index --apply <path>`. -/
  | gitApply (path : String)
  /-- `git diff --name-only --cached`. -/
  | gitDiff
  | rm (path : String)
deriving DecidableEq, Repr

@[reducible] def PatchCall.Res : PatchCall → Type
  | mkdtemp => String
  | writeFile .. | rm _ => Unit
  | gitApply _ | gitDiff => CommandOutput

/-- What a call resolves to or throws. -/
@[reducible] def PatchCall.Ans (o : PatchCall) : Type := Except SystemError o.Res

abbrev Patching (α : Type) := Act PatchError PatchCall PatchCall.Ans α

/-- `await` a call. -/
def patchCall (o : PatchCall) : Patching o.Res := do
  let answer ← Act.perform o
  Act.ofExcept (answer.mapError .system)

/-! ### `applyPatch` -/

/-- `parseChangedFiles`. -/
def parseChangedFiles (host : Host) (raw : String) : List String :=
  (((Text.splitOnChar '\n' raw).map Text.trim).filter (· ≠ "")).mergeSort
    fun a b => host.localeCompare a b != .gt

def baseDiagnostics : ApplyPatchDiagnostics where
  changedFiles := []
  command := "git apply --whitespace=nowarn --recount --verbose --index --apply <patch-file>"

/-- `text.length > 0 ? { ... } : {}`. -/
def presentOutput (text : String) : Option String := if text = "" then none else some text

/-- The `catch` block around the two commands. -/
def patchFailure (error : PatchError) : PatchError :=
  let stdout := Text.trim (error.read.stdout.getD "")
  let stderr := Text.trim (error.read.stderr.getD "")
  let diagnostics :=
    { baseDiagnostics with stdout := presentOutput stdout, stderr := presentOutput stderr }
  if error.read.isAbort then
    .applyPatch .patchCancelled "Patch apply cancelled" diagnostics
  else
    .applyPatch .patchApplyFailed "Failed to apply patch" diagnostics

/-- What is returned once both commands have succeeded. -/
def commandDiagnostics (host : Host) (applyResult listResult : CommandOutput) :
    ApplyPatchDiagnostics :=
  let stdout := Text.trim applyResult.stdout
  let stderr := Text.trim applyResult.stderr
  { baseDiagnostics with
    changedFiles := parseChangedFiles host listResult.stdout
    stdout := presentOutput stdout
    stderr := presentOutput stderr }

/-- The two commands. -/
def gitCommands (host : Host) (patchFilePath : String) : Patching ApplyPatchDiagnostics := do
  let applyResult : CommandOutput ← patchCall (.gitApply patchFilePath)
  let listResult : CommandOutput ← patchCall .gitDiff
  return commandDiagnostics host applyResult listResult

/-- The patch file in the temporary directory. -/
def patchFile (tempDir : String) : String := tempDir ++ "/change.patch"

/-- **`applyPatch`**. -/
def applyPatch (host : Host) (inputText : String) : Patching ApplyPatchDiagnostics := do
  let patchText := Text.trim inputText
  if patchText = "" then
    throw (.applyPatch .patchTextEmpty "Patch text is empty" baseDiagnostics)
  let tempDir : String ← patchCall .mkdtemp
  let patchFilePath := patchFile tempDir
  Act.finallyDo
    (do
      patchCall (.writeFile patchFilePath patchText)
      Act.catching (gitCommands host patchFilePath) fun error => throw (patchFailure error))
    fun _ => patchCall (.rm tempDir)

/-! ### The stage -/

/-- `buildFailure`. -/
def buildFailure (code message : String) (retriable : Bool) : RepoMutationStageResult where
  ok := false
  failure := some { code, message, retriable }

/-- The result of the stage when `applyPatch` throws. -/
def changeApplyFailure : PatchError → RepoMutationStageResult
  | .applyPatch .patchTextEmpty message _ =>
    buildFailure ApplyPatchCode.patchTextEmpty.text message false
  | .applyPatch .patchCancelled message _ =>
    buildFailure ApplyPatchCode.patchCancelled.text message false
  | .applyPatch .patchApplyFailed message _ =>
    buildFailure ApplyPatchCode.patchApplyFailed.text message true
  | .system error =>
    buildFailure "CHANGE_APPLY_FAILED" (error.message.getD "Unknown change apply failure") true

/-- `executeChangeApplyStage`, with `applyPatch`. -/
def executeChangeApplyStage (host : Host) (patchText : String) :
    Patching RepoMutationStageResult := do
  match ← Act.attempt (applyPatch host patchText) with
  | .ok diagnostics =>
    return { ok := true
             notes := some "patch_applied"
             metadata := some [("changedFiles", ",".intercalate diagnostics.changedFiles),
              ("changedFilesCount", toString diagnostics.changedFiles.length)] }
  | .error error => return changeApplyFailure error

/-! ### What a call does -/

section Exec

variable {S : Type} (handle : (o : PatchCall) → S → o.Ans × S)

theorem exec_patchCall (o : PatchCall) (s : S) :
    Act.exec handle (patchCall o) s = ((handle o s).1.mapError .system, (handle o s).2) := by
  unfold patchCall
  rw [Act.exec_bind, Act.exec_perform]
  rfl

theorem exec_gitCommands (host : Host) (path : String) (s : S) :
    Act.exec handle (gitCommands host path) s =
      match (handle (.gitApply path) s).1 with
      | .error e => (.error (.system e), (handle (.gitApply path) s).2)
      | .ok applied =>
        let s' := (handle (.gitApply path) s).2
        match (handle .gitDiff s').1 with
        | .error e => (.error (.system e), (handle .gitDiff s').2)
        | .ok listed => (.ok (commandDiagnostics host applied listed), (handle .gitDiff s').2) := by
  unfold gitCommands
  rw [Act.exec_bind, exec_patchCall]
  rcases handle (.gitApply path) s with ⟨e | applied, s'⟩
  · rfl
  · change Act.exec handle (patchCall .gitDiff >>= _) s' = _
    rw [Act.exec_bind, exec_patchCall]
    dsimp only
    rcases handle .gitDiff s' with ⟨e | listed, s''⟩ <;> rfl

end Exec

end AiOrchestrator
