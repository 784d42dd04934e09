import AiOrchestrator.Core.ProjectState
import Mathlib.Data.Rat.Floor

/-!
# The repository mutation pipeline

`RepoMutationPipeline.run` (`packages/execution/src/repo-mutation-pipeline.ts`): the stages in
`STAGE_ORDER`, the attempts of one stage, the evidence of each attempt, and the compensation of the
stage at which the pipeline stops. What a stage sees and changes, the shared context included, is a
`σ`; its executor and its compensation are functions on `σ`. The readings of the clock are a
sequence of their own, and `calls` tells which closures were called, in order.

A run may retry for ever, where `maxAttempts` is infinite, so the loop over the attempts has fuel.
Only `attemptStage` looks at the code of an attempt: `attemptStage_passed`, `attemptStage_retried`
and `attemptStage_stopped` say what it does by the outcome of the attempt, and `stageLoop_cases`
and `stageLoop_of_finish` what the loop makes of it.
-/

namespace AiOrchestrator

inductive RepoMutationStageName
  | workspacePrepare | branchPrepare | changeApply | verification
  | commitPrepare | pushPrepare | prDraftPrepare | finalize
deriving DecidableEq, Repr

namespace RepoMutationStageName

def text : RepoMutationStageName → String
  | workspacePrepare => "workspace_prepare"
  | branchPrepare => "branch_prepare"
  | changeApply => "change_apply"
  | verification => "verification"
  | commitPrepare => "commit_prepare"
  | pushPrepare => "push_prepare"
  | prDraftPrepare => "pr_draft_prepare"
  | finalize => "finalize"

/-- `STAGE_ORDER`. -/
def order : List RepoMutationStageName :=
  [workspacePrepare, branchPrepare, changeApply, verification, commitPrepare, pushPrepare,
    prDraftPrepare, finalize]

/-- `STAGE_ORDER.indexOf(name)`. -/
def index (name : RepoMutationStageName) : Nat := order.idxOf name

theorem index_injective : Function.Injective index := by
  intro a b h
  have ha : a ∈ order := by cases a <;> decide
  exact (List.idxOf_inj ha).mp h

end RepoMutationStageName

/-! ### Numbers -/

/-- A number of the language, as far as a count is compared with it. -/
inductive Number
  | nan | negativeInfinity | finite (value : ℚ) | infinity

namespace Number

/-- `count < limit`. -/
def exceeds (limit : Number) (count : Nat) : Bool :=
  match limit with
  | finite value => decide ((count : ℚ) < value)
  | infinity => true
  | nan | negativeInfinity => false

/-- `count >= limit`. -/
def reached (limit : Number) (count : Nat) : Bool :=
  match limit with
  | finite value => decide (value ≤ (count : ℚ))
  | negativeInfinity => true
  | nan | infinity => false

theorem reached_eq_false {limit : Number} {count : Nat} (h : limit.exceeds count = true) :
    limit.reached count = false := by
  cases limit with
  | finite value =>
    have hlt : (count : ℚ) < value := of_decide_eq_true h
    exact decide_eq_false (not_le.mpr hlt)
  | infinity => rfl
  | nan => cases h
  | negativeInfinity => cases h

theorem exceeds_of_le {limit : Number} {a b : Nat} (h : limit.exceeds b = true) (hab : a ≤ b) :
    limit.exceeds a = true := by
  cases limit with
  | finite value =>
    have hlt : (b : ℚ) < value := of_decide_eq_true h
    have hle : (a : ℚ) ≤ b := Nat.cast_le.mpr hab
    exact decide_eq_true (lt_of_le_of_lt hle hlt)
  | infinity => rfl
  | nan => cases h
  | negativeInfinity => cases h

/-- Below a limit that exceeds some count, a count is exceeded or has reached the limit. -/
theorem exceeds_of_reached_eq_false {limit : Number} {a count : Nat}
    (hpositive : limit.exceeds a = true) (h : limit.reached count = false) :
    limit.exceeds count = true := by
  cases limit with
  | finite value => exact decide_eq_true (not_le.mp (of_decide_eq_false h))
  | infinity => rfl
  | nan => cases hpositive
  | negativeInfinity => cases h

end Number

/-! ### Stages -/

/-- What a stage throws. -/
inductive StageError
  | error (message : String)
  /-- `StageTimeoutError`. -/
  | timeout (stage : RepoMutationStageName) (timeoutMs : Nat)
  /-- A thrown value that is not an `Error`. -/
  | other
deriving DecidableEq, Repr

/-- `error instanceof Error ? error.message : 'unknown_error'`. -/
def StageError.message : StageError → String
  | error message => message
  | timeout stage timeoutMs => "Stage " ++ stage.text ++ " timed out after " ++
      toString timeoutMs ++ "ms"
  | other => "unknown_error"

def StageError.isStageTimeout : StageError → Bool
  | timeout .. => true
  | error _ | other => false

structure StageFailure where
  code : String
  message : String
  retriable : Bool
deriving DecidableEq, Repr

structure RepoMutationStageResult where
  ok : Bool
  notes : Option String := none
  metadata : Option (List (String × String)) := none
  failure : Option StageFailure := none
deriving DecidableEq, Repr

/-- How the race between `stage.execute` and the timer ends: the executor is first, when the
signal may have fired already, or the timer is. -/
inductive StageOutcome
  | settled (result : Except StageError RepoMutationStageResult) (aborted : Bool)
  | timedOut

namespace StageOutcome

def aborted : StageOutcome → Bool
  | settled _ aborted => aborted
  | timedOut => true

def succeeded : StageOutcome → Bool
  | settled (.ok result) _ => result.ok
  | settled (.error _) _ | timedOut => false

/-- The stage reports a failure after which it may be tried again. -/
def retriable : StageOutcome → Bool
  | settled (.ok { ok := false, failure := some failure, .. }) _ => failure.retriable
  | settled _ _ | timedOut => false

end StageOutcome

inductive RepoMutationStageStatus
  | succeeded | failed | compensated | skipped
deriving DecidableEq, Repr

structure RepoMutationStageEvidence where
  stage : RepoMutationStageName
  status : RepoMutationStageStatus
  startedAt : String
  finishedAt : String
  durationMs : Int
  attempt : Nat
  notes : Option String := none
  metadata : Option (List (String × String)) := none
  errorCode : Option String := none
  errorMessage : Option String := none
deriving DecidableEq, Repr

structure RepoMutationStageDefinition (σ : Type) where
  name : RepoMutationStageName
  timeoutMs : Nat
  maxAttempts : Number
  execute : σ → StageOutcome × σ
  compensate : Option (σ → Except StageError Unit × σ) := none

structure RepoMutationPipelineResult where
  ok : Bool
  stoppedAt : Option RepoMutationStageName := none
  evidences : List RepoMutationStageEvidence
deriving DecidableEq, Repr

/-- A call of a stage's executor, with the world before it, or of its compensation. -/
inductive StageCall (σ : Type)
  | executed (stage : RepoMutationStageName) (before : σ) (outcome : StageOutcome)
  | compensated (stage : RepoMutationStageName) (result : Except StageError Unit)

namespace RepoMutationPipeline

variable {σ : Type} (clock : Nat → Int)

/-- A run of the pipeline: what the stages see, the evidences so far, the number of readings of the
clock, and the calls so far. -/
structure Run (σ : Type) where
  world : σ
  evidences : List RepoMutationStageEvidence := []
  readings : Nat := 0
  calls : List (StageCall σ) := []

def Run.push (s : Run σ) (evidence : RepoMutationStageEvidence) : Run σ :=
  { s with evidences := s.evidences ++ [evidence] }

/-- `notes ? { notes } : {}`. -/
def presentNotes (notes : Option String) : Option String :=
  notes.filter (· ≠ "")

/-- `compensateIfNeeded`. -/
def compensateIfNeeded (stage : RepoMutationStageDefinition σ) (s : Run σ) :
    Except StageError Unit × Run σ :=
  match stage.compensate with
  | none => (.ok (), s)
  | some compensate =>
    let startedAt := clock s.readings
    let answer := compensate s.world
    let s := { s with
      world := answer.2, readings := s.readings + 1
      calls := s.calls ++ [.compensated stage.name answer.1] }
    match answer.1 with
    | .error error => (.error error, s)
    | .ok () =>
      let finishedAt := clock s.readings
      (.ok (), { s with readings := s.readings + 1 }.push
        { stage := stage.name
          status := .compensated
          startedAt := Text.toIsoString startedAt
          finishedAt := Text.toIsoString finishedAt
          durationMs := finishedAt - startedAt
          attempt := 1
          notes := some "compensation_completed" })

/-- How an attempt ends: the stage succeeded, another attempt follows, the pipeline stops, or `run`
rejects. -/
inductive AttemptEnd
  | passed | retry | stopped
  | rejected (error : StageError)

/-- `await this.compensateIfNeeded(...)` outside of the `try` block, and the return after it. -/
def stopAttempt (stage : RepoMutationStageDefinition σ) (s : Run σ) : AttemptEnd × Run σ :=
  match compensateIfNeeded clock stage s with
  | (.ok (), s) => (.stopped, s)
  | (.error error, s) => (.rejected error, s)

/-- The `catch` block of an attempt. -/
def catchAttempt (stage : RepoMutationStageDefinition σ) (attempt : Nat) (startedAt : Int)
    (aborted : Bool) (error : StageError) (s : Run σ) : AttemptEnd × Run σ :=
  let finishedAt := clock s.readings
  stopAttempt clock stage ({ s with readings := s.readings + 1 }.push
    { stage := stage.name
      status := .failed
      startedAt := Text.toIsoString startedAt
      finishedAt := Text.toIsoString finishedAt
      durationMs := finishedAt - startedAt
      attempt
      errorCode := some (if error.isStageTimeout || aborted then "STAGE_TIMEOUT"
        else "STAGE_EXCEPTION")
      errorMessage := some error.message })

/-- The evidence of an attempt that reports a failure. -/
def failedEvidence (stage : RepoMutationStageDefinition σ) (attempt : Nat)
    (startedAt finishedAt : Int) (result : RepoMutationStageResult) (failure : StageFailure) :
    RepoMutationStageEvidence where
  stage := stage.name
  status := .failed
  startedAt := Text.toIsoString startedAt
  finishedAt := Text.toIsoString finishedAt
  durationMs := finishedAt - startedAt
  attempt
  errorCode := some failure.code
  errorMessage := some failure.message
  notes := presentNotes result.notes
  metadata := result.metadata

/-- The attempt after a result that is not `ok`. -/
def failAttempt (stage : RepoMutationStageDefinition σ) (attempt : Nat)
    (startedAt finishedAt : Int) (aborted : Bool) (result : RepoMutationStageResult) (s : Run σ) :
    AttemptEnd × Run σ :=
  match result.failure with
  | none =>
    catchAttempt clock stage attempt startedAt aborted
      (.error ("Stage " ++ stage.name.text ++ " returned failed result without failure payload")) s
  | some failure =>
    let failedEvidence := failedEvidence stage attempt startedAt finishedAt result failure
    let isLastAttempt := stage.maxAttempts.reached attempt
    if !failure.retriable || isLastAttempt then
      -- still inside of the `try` block
      match compensateIfNeeded clock stage (s.push failedEvidence) with
      | (.ok (), s) => (.stopped, s)
      | (.error error, s) => catchAttempt clock stage attempt startedAt aborted error s
    else
      (.retry, s.push { failedEvidence with status := .skipped, notes := some "retry_scheduled" })

/-- The attempt after the race. -/
def settleAttempt (stage : RepoMutationStageDefinition σ) (attempt : Nat) (startedAt : Int)
    (s : Run σ) : StageOutcome → AttemptEnd × Run σ
  | .timedOut =>
    catchAttempt clock stage attempt startedAt true (.timeout stage.name stage.timeoutMs) s
  | .settled (.error error) aborted => catchAttempt clock stage attempt startedAt aborted error s
  | .settled (.ok result) aborted =>
    let finishedAt := clock s.readings
    let s := { s with readings := s.readings + 1 }
    if result.ok then
      (.passed, s.push
        { stage := stage.name
          status := .succeeded
          startedAt := Text.toIsoString startedAt
          finishedAt := Text.toIsoString finishedAt
          durationMs := finishedAt - startedAt
          attempt
          notes := presentNotes result.notes
          metadata := result.metadata })
    else
      failAttempt clock stage attempt startedAt finishedAt aborted result s

/-- The run after `startedAt` was read and the executor was called. -/
def Run.execute (s : Run σ) (stage : RepoMutationStageDefinition σ) : Run σ :=
  { s with
    world := (stage.execute s.world).2
    readings := s.readings + 1
    calls := s.calls ++ [.executed stage.name s.world (stage.execute s.world).1] }

/-- One attempt of a stage, the body of the `while` loop. -/
def attemptStage (stage : RepoMutationStageDefinition σ) (attempt : Nat) (s : Run σ) :
    AttemptEnd × Run σ :=
  settleAttempt clock stage attempt (clock s.readings) (s.execute stage) (stage.execute s.world).1

/-- The `while` loop over the attempts of a stage, from `attempt` attempts on; `passed` is also the
end of a loop without attempts. -/
def stageLoop (stage : RepoMutationStageDefinition σ) :
    (fuel attempt : Nat) → Run σ → Option (AttemptEnd × Run σ)
  | fuel, attempt, s =>
    if stage.maxAttempts.exceeds attempt then
      match fuel with
      | 0 => none
      | fuel + 1 =>
        match attemptStage clock stage (attempt + 1) s with
        | (.retry, s) => stageLoop stage fuel (attempt + 1) s
        | done => some done
    else
      some (.passed, s)

/-- The loop over the stages. -/
def runStages (fuel : Nat) : List (RepoMutationStageDefinition σ) → Run σ →
    Option (Except StageError RepoMutationPipelineResult × Run σ)
  | [], s => some (.ok { ok := true, evidences := s.evidences }, s)
  | stage :: rest, s =>
    match stageLoop clock stage fuel 0 s with
    | none => none
    | some (.stopped, s) =>
      some (.ok { ok := false, stoppedAt := some stage.name, evidences := s.evidences }, s)
    | some (.rejected error, s) => some (.error error, s)
    | some (_, s) => runStages fuel rest s

/-- `[...input.stages].sort(...)`. -/
def orderedStages (stages : List (RepoMutationStageDefinition σ)) :
    List (RepoMutationStageDefinition σ) :=
  stages.mergeSort fun a b => a.name.index ≤ b.name.index

/-- **`run`**, with at most `fuel` attempts of a stage. -/
def run (fuel : Nat) (stages : List (RepoMutationStageDefinition σ)) (world : σ) :
    Option (Except StageError RepoMutationPipelineResult × Run σ) :=
  runStages clock fuel (orderedStages stages) { world }

end RepoMutationPipeline

end AiOrchestrator
