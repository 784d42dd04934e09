import AiOrchestrator.Mutation.Pipeline

/-!
# The course of a stage

What the executor of a stage does when it is called again and again: `outcomeAt w n` is the outcome
of the call after `n` others, from the world `w` on. An attempt succeeds, is tried again
(`attemptStage_retried`), or ends the loop over the attempts, with or without an error of the
compensation (`ended_attemptStage`). `stageLoop_cases` and `stageLoop_of_finishes` are the loop: it
makes attempts up to the first one after which the stage is not tried again.
-/

namespace AiOrchestrator

namespace RepoMutationStageDefinition

variable {σ : Type} (stage : RepoMutationStageDefinition σ)

/-- The world after `n` calls of the executor. -/
def worldAfter (n : Nat) (w : σ) : σ := (fun w => (stage.execute w).2)^[n] w

/-- The outcome of the call of the executor after `n` others. -/
def outcomeAt (w : σ) (n : Nat) : StageOutcome := (stage.execute (stage.worldAfter n w)).1

/-- The first `n` calls of the executor all end in a failure after which it may be tried again. -/
def Retries (w : σ) (n : Nat) : Prop := ∀ k < n, (stage.outcomeAt w k).retriable = true

/-- The first `n` calls of the executor. -/
def tries (w : σ) (n : Nat) : List (StageCall σ) :=
  (List.range n).map fun k => .executed stage.name (stage.worldAfter k w) (stage.outcomeAt w k)

theorem worldAfter_succ' (n : Nat) (w : σ) :
    stage.worldAfter (n + 1) w = (stage.execute (stage.worldAfter n w)).2 :=
  Function.iterate_succ_apply' _ n w

theorem tries_succ' (w : σ) (n : Nat) :
    stage.tries w (n + 1) = stage.tries w n ++
      [.executed stage.name (stage.worldAfter n w) (stage.outcomeAt w n)] := by
  unfold tries
  rw [List.range_succ, List.map_append]
  rfl

end RepoMutationStageDefinition

/-- The evidence that tells of a call: of its stage, and for an attempt whether it succeeded. -/
def StageCall.Evidenced {σ : Type} : StageCall σ → RepoMutationStageEvidence → Prop
  | executed stage _ outcome, evidence =>
    evidence.stage = stage ∧ evidence.status ≠ .compensated ∧
      (evidence.status = .succeeded ↔ outcome.succeeded = true)
  | compensated stage _, evidence => evidence.stage = stage ∧ evidence.status = .compensated

theorem StageOutcome.succeeded_eq_false {outcome : StageOutcome} (h : outcome.retriable = true) :
    outcome.succeeded = false := by
  rcases outcome with ⟨error | ⟨⟨⟩ | ⟨⟩⟩, _⟩ | _ <;> first | rfl | cases h

namespace RepoMutationPipeline

variable {σ : Type} {clock : Nat → Int} {stage : RepoMutationStageDefinition σ}

/-- There is an evidence for each call so far. -/
def Run.Told (s : Run σ) : Prop := List.Forall₂ StageCall.Evidenced s.calls s.evidences

/-- `s'` is `s` after the calls `calls`, all of which it tells of if `s` does. -/
structure Run.Then (s : Run σ) (calls : List (StageCall σ)) (world : σ) (s' : Run σ) : Prop where
  world_eq : s'.world = world
  calls_eq : s'.calls = s.calls ++ calls
  told : s.Told → s'.Told

theorem Run.Then.refl (s : Run σ) : s.Then [] s.world s :=
  ⟨rfl, (List.append_nil _).symm, id⟩

theorem Run.Then.trans {s s' s'' : Run σ} {calls calls' : List (StageCall σ)} {w w' : σ}
    (h : s.Then calls w s') (h' : s'.Then calls' w' s'') : s.Then (calls ++ calls') w' s'' where
  world_eq := h'.world_eq
  calls_eq := by rw [h'.calls_eq, h.calls_eq, List.append_assoc]
  told := h'.told ∘ h.told

/-- One call and its evidence. -/
theorem Run.Then.one {s s' : Run σ} {call : StageCall σ} {evidence : RepoMutationStageEvidence}
    {world : σ} (hworld : s'.world = world) (hcalls : s'.calls = s.calls ++ [call])
    (hevidences : s'.evidences = s.evidences ++ [evidence]) (hevidence : call.Evidenced evidence) :
    s.Then [call] world s' where
  world_eq := hworld
  calls_eq := hcalls
  told := by
    intro htold
    unfold Run.Told at *
    rw [hcalls, hevidences]
    exact List.rel_append htold (.cons hevidence .nil)

/-! ### Compensation -/

/-- The calls of a compensation that succeeds, if there is one. -/
def compensation (stage : RepoMutationStageDefinition σ) : List (StageCall σ) :=
  if stage.compensate.isSome then [.compensated stage.name (.ok ())] else []

/-- The world after the compensation. -/
def compensatedWorld (stage : RepoMutationStageDefinition σ) (w : σ) : σ :=
  match stage.compensate with
  | none => w
  | some compensate => (compensate w).2

/-- The compensation, if there is one, does not throw in the world `w`. -/
def Compensates (stage : RepoMutationStageDefinition σ) (w : σ) : Prop :=
  ∀ compensate, stage.compensate = some compensate → (compensate w).1 = .ok ()

variable (clock) in
theorem compensateIfNeeded_ok {s : Run σ} (h : Compensates stage s.world) :
    ∃ s', compensateIfNeeded clock stage s = (.ok (), s') ∧
      s.Then (compensation stage) (compensatedWorld stage s.world) s' := by
  unfold compensateIfNeeded compensation compensatedWorld
  cases hcompensate : stage.compensate with
  | none => exact ⟨s, rfl, .refl s⟩
  | some compensate =>
    have hok := h compensate hcompensate
    simp only [hok]
    exact ⟨_, rfl, .one rfl rfl rfl ⟨rfl, rfl⟩⟩

variable (clock) in
/-- A compensation that throws is called, and the error goes on. -/
theorem compensateIfNeeded_error {s : Run σ} (h : ¬ Compensates stage s.world) :
    ∃ error s', compensateIfNeeded clock stage s = (.error error, s') ∧
      s'.calls = s.calls ++ [.compensated stage.name (.error error)] := by
  unfold Compensates at h
  push Not at h
  obtain ⟨compensate, hcompensate, hthrows⟩ := h
  unfold compensateIfNeeded
  simp only [hcompensate]
  cases hanswer : (compensate s.world).1 with
  | ok u => exact absurd hanswer hthrows
  | error error => exact ⟨error, _, rfl, rfl⟩

/-! ### One attempt -/

/-- `s'` is `s` after a call of which nothing is told yet. -/
structure Run.Called (s : Run σ) (call : StageCall σ) (world : σ) (s' : Run σ) : Prop where
  world_eq : s'.world = world
  calls_eq : s'.calls = s.calls ++ [call]
  evidences_eq : s'.evidences = s.evidences

theorem Run.Called.push {s s' : Run σ} {call : StageCall σ} {world : σ}
    (h : s.Called call world s') {evidence : RepoMutationStageEvidence}
    (hevidence : call.Evidenced evidence) : s.Then [call] world (s'.push evidence) :=
  .one h.world_eq h.calls_eq (congrArg (· ++ [evidence]) h.evidences_eq) hevidence

theorem Run.Called.read {s s' : Run σ} {call : StageCall σ} {world : σ}
    (h : s.Called call world s') : s.Called call world { s' with readings := s'.readings + 1 } :=
  ⟨h.world_eq, h.calls_eq, h.evidences_eq⟩

/-- The calls of an attempt after which the pipeline stops without an error of the
compensation. -/
def lastCalls (stage : RepoMutationStageDefinition σ) (before : σ) (outcome : StageOutcome) :
    List (StageCall σ) :=
  .executed stage.name before outcome :: compensation stage

/-- What an attempt leaves behind when the compensation throws: `run` rejects, or the compensation
has been called twice. -/
def Recalled (stage : RepoMutationStageDefinition σ) (s : Run σ) (before : σ)
    (outcome : StageOutcome) (done : AttemptEnd × Run σ) : Prop :=
  ∃ results : List (Except StageError Unit),
    done.2.calls = s.calls ++
      .executed stage.name before outcome :: results.map (.compensated stage.name) ∧
    ((∃ error, done.1 = .rejected error) ∨ (done.1 = .stopped ∧ results.length = 2))

section Attempt

variable {s s' : Run σ} {before : σ} {outcome : StageOutcome} {w : σ} {attempt : Nat} {startedAt : Int}
  {aborted : Bool}

theorem stopAttempt_ok (h : s.Then [.executed stage.name before outcome] w s')
    (hcompensates : Compensates stage w) :
    ∃ s'', stopAttempt clock stage s' = (.stopped, s'') ∧
      s.Then (lastCalls stage before outcome) (compensatedWorld stage w) s'' := by
  rw [← h.world_eq] at hcompensates
  obtain ⟨s'', heq, hthen⟩ := compensateIfNeeded_ok clock hcompensates
  rw [h.world_eq] at hthen
  refine ⟨s'', ?_, h.trans hthen⟩
  rw [stopAttempt, heq]

theorem stopAttempt_error (h : s'.calls = s.calls ++ [.executed stage.name before outcome])
    (hthrows : ¬ Compensates stage s'.world) :
    Recalled stage s before outcome (stopAttempt clock stage s') := by
  obtain ⟨error, s'', heq, hcalls⟩ := compensateIfNeeded_error clock hthrows
  refine ⟨[.error error], ?_, .inl ⟨error, by rw [stopAttempt, heq]⟩⟩
  rw [stopAttempt, heq]
  show s''.calls = _
  rw [hcalls, h, List.append_assoc]
  rfl

theorem catchAttempt_ok (h : s.Called (.executed stage.name before outcome) w s')
    (hfailed : outcome.succeeded = false) (hcompensates : Compensates stage w)
    (error : StageError) :
    ∃ s'', catchAttempt clock stage attempt startedAt aborted error s' = (.stopped, s'') ∧
      s.Then (lastCalls stage before outcome) (compensatedWorld stage w) s'' := by
  unfold catchAttempt
  refine stopAttempt_ok (h.read.push ⟨rfl, nofun, ?_⟩) hcompensates
  rw [hfailed]
  exact iff_of_false nofun nofun

theorem catchAttempt_error (h : s.Called (.executed stage.name before outcome) w s')
    (hthrows : ¬ Compensates stage w) (error : StageError) :
    Recalled stage s before outcome
      (catchAttempt clock stage attempt startedAt aborted error s') := by
  rw [← h.world_eq] at hthrows
  exact stopAttempt_error h.calls_eq hthrows

/-- The `catch` block after a compensation that has thrown: it calls the compensation again. -/
theorem catchAttempt_recall {error : StageError}
    (h : s'.calls = s.calls ++
      [.executed stage.name before outcome, .compensated stage.name (.error error)])
    (hcompensate : stage.compensate.isSome = true) :
    Recalled stage s before outcome
      (catchAttempt clock stage attempt startedAt aborted error s') := by
  obtain ⟨compensate, hcompensate⟩ := Option.isSome_iff_exists.mp hcompensate
  refine ⟨[.error error, (compensate s'.world).1], ?_, ?_⟩
  · unfold catchAttempt stopAttempt compensateIfNeeded
    simp only [hcompensate, Run.push]
    cases (compensate s'.world).1 <;>
      simp only [h, List.append_assoc, List.cons_append, List.nil_append, List.map_cons,
        List.map_nil]
  · unfold catchAttempt stopAttempt compensateIfNeeded
    simp only [hcompensate, Run.push]
    cases (compensate s'.world).1 with
    | error error' => exact .inl ⟨error', rfl⟩
    | ok u => exact .inr ⟨rfl, rfl⟩

/-- The outcome of an attempt ends the loop: it succeeded, or it is not tried again. -/
def Finishes (stage : RepoMutationStageDefinition σ) (attempt : Nat) (outcome : StageOutcome) : Prop :=
  outcome.retriable = false ∨ stage.maxAttempts.reached attempt = true

theorem failAttempt_retried {finishedAt : Int} {result : RepoMutationStageResult}
    (h : s.Called (.executed stage.name before (.settled (.ok result) aborted)) w s')
    (hretriable : (StageOutcome.settled (.ok result) aborted).retriable = true)
    (hreached : stage.maxAttempts.reached attempt = false) :
    ∃ s'', failAttempt clock stage attempt startedAt finishedAt aborted result s' =
        (.retry, s'') ∧
      s.Then [.executed stage.name before (.settled (.ok result) aborted)] w s'' := by
  have hfailed := StageOutcome.succeeded_eq_false hretriable
  obtain ⟨ok, notes, metadata, failure⟩ := result
  cases ok with
  | true => cases hretriable
  | false =>
    cases failure with
    | none => cases hretriable
    | some failure =>
      have hretry : failure.retriable = true := hretriable
      have hevidence : (StageCall.executed stage.name before
            (.settled (.ok ⟨false, notes, metadata, some failure⟩) aborted)).Evidenced
          { failedEvidence stage attempt startedAt finishedAt ⟨false, notes, metadata, some failure⟩
              failure with status := .skipped, notes := some "retry_scheduled" } :=
        ⟨rfl, nofun, iff_of_false nofun nofun⟩
      refine ⟨_, ?_, h.push hevidence⟩
      unfold failAttempt
      simp only [hretry, hreached]
      rfl

theorem stops_of_finishes {notes : Option String} {metadata : Option (List (String × String))}
    {failure : StageFailure}
    (h : Finishes stage attempt (.settled (.ok ⟨false, notes, metadata, some failure⟩) aborted)) :
    (!failure.retriable || stage.maxAttempts.reached attempt) = true := by
  rcases h with hfinal | hreached
  · have hfinal : failure.retriable = false := hfinal
    rw [hfinal]
    rfl
  · rw [hreached, Bool.or_true]

theorem failAttempt_stopped {finishedAt : Int} {result : RepoMutationStageResult}
    (h : s.Called (.executed stage.name before (.settled (.ok result) aborted)) w s')
    (hok : result.ok = false)
    (hfinishes : Finishes stage attempt (.settled (.ok result) aborted))
    (hcompensates : Compensates stage w) :
    ∃ s'', failAttempt clock stage attempt startedAt finishedAt aborted result s' =
        (.stopped, s'') ∧
      s.Then (lastCalls stage before (.settled (.ok result) aborted)) (compensatedWorld stage w) s'' := by
  obtain ⟨ok, notes, metadata, failure⟩ := result
  have hfailed : ok = false := hok
  subst hfailed
  unfold failAttempt
  cases failure with
  | none => exact catchAttempt_ok h rfl hcompensates _
  | some failure =>
    have hevidence : (StageCall.executed stage.name before
          (.settled (.ok ⟨false, notes, metadata, some failure⟩) aborted)).Evidenced
        (failedEvidence stage attempt startedAt finishedAt ⟨false, notes, metadata, some failure⟩
          failure) :=
      ⟨rfl, nofun, iff_of_false nofun nofun⟩
    have hfailed := h.push hevidence
    rw [← hfailed.world_eq] at hcompensates
    obtain ⟨s'', heq, hthen⟩ := compensateIfNeeded_ok clock hcompensates
    rw [hfailed.world_eq] at hthen
    refine ⟨s'', ?_, hfailed.trans hthen⟩
    simp only [stops_of_finishes hfinishes, if_true, heq]

/-- A compensation that throws after a reported failure throws inside of the `try` block. -/
theorem failAttempt_thrown {finishedAt : Int} {result : RepoMutationStageResult}
    (h : s.Called (.executed stage.name before (.settled (.ok result) aborted)) w s')
    (hok : result.ok = false)
    (hfinishes : Finishes stage attempt (.settled (.ok result) aborted))
    (hthrows : ¬ Compensates stage w) :
    Recalled stage s before (.settled (.ok result) aborted)
      (failAttempt clock stage attempt startedAt finishedAt aborted result s') := by
  obtain ⟨ok, notes, metadata, failure⟩ := result
  have hfailed : ok = false := hok
  subst hfailed
  unfold failAttempt
  cases failure with
  | none => exact catchAttempt_error h hthrows _
  | some failure =>
    have hcompensate : stage.compensate.isSome = true := by
      unfold Compensates at hthrows
      push Not at hthrows
      obtain ⟨compensate, hsome, -⟩ := hthrows
      rw [hsome]
      rfl
    rw [← h.world_eq] at hthrows
    obtain ⟨error, s'', heq, hcalls⟩ := compensateIfNeeded_error clock
      (s := s'.push (failedEvidence stage attempt startedAt finishedAt
        ⟨false, notes, metadata, some failure⟩ failure)) hthrows
    simp only [stops_of_finishes hfinishes, if_true, heq]
    refine catchAttempt_recall ?_ hcompensate
    rw [hcalls]
    show s'.calls ++ _ = _
    rw [h.calls_eq, List.append_assoc]
    rfl

/-! What an attempt does, by the outcome of the executor. -/

variable (s stage) in
theorem called_execute :
    s.Called (.executed stage.name s.world (stage.execute s.world).1) (stage.execute s.world).2
      (s.execute stage) :=
  ⟨rfl, rfl, rfl⟩

variable (clock startedAt) in
theorem settleAttempt_passed (h : s.Called (.executed stage.name before outcome) w s')
    (hsucceeded : outcome.succeeded = true) :
    ∃ s'', settleAttempt clock stage attempt startedAt s' outcome = (.passed, s'') ∧
      s.Then [.executed stage.name before outcome] w s'' := by
  rcases outcome with ⟨error | result, aborted⟩ | _
  · cases hsucceeded
  · have hok : result.ok = true := hsucceeded
    refine ⟨_, if_pos hok, h.read.push ?_⟩
    exact ⟨rfl, nofun, iff_of_true rfl hok⟩
  · cases hsucceeded

variable (clock startedAt) in
theorem settleAttempt_retried (h : s.Called (.executed stage.name before outcome) w s')
    (hretriable : outcome.retriable = true) (hreached : stage.maxAttempts.reached attempt = false) :
    ∃ s'', settleAttempt clock stage attempt startedAt s' outcome = (.retry, s'') ∧
      s.Then [.executed stage.name before outcome] w s'' := by
  have hfailed := StageOutcome.succeeded_eq_false hretriable
  rcases outcome with ⟨error | result, aborted⟩ | _
  · cases hretriable
  · have hok : ¬ result.ok = true := ne_true_of_eq_false hfailed
    obtain ⟨s'', heq, hthen⟩ := failAttempt_retried h.read hretriable hreached
    exact ⟨s'', (if_neg hok).trans heq, hthen⟩
  · cases hretriable

variable (clock startedAt) in
theorem settleAttempt_stopped (h : s.Called (.executed stage.name before outcome) w s')
    (hfailed : outcome.succeeded = false) (hfinishes : Finishes stage attempt outcome)
    (hcompensates : Compensates stage w) :
    ∃ s'', settleAttempt clock stage attempt startedAt s' outcome = (.stopped, s'') ∧
      s.Then (lastCalls stage before outcome) (compensatedWorld stage w) s'' := by
  rcases outcome with ⟨error | result, aborted⟩ | _
  · exact catchAttempt_ok h hfailed hcompensates error
  · have hok : ¬ result.ok = true := ne_true_of_eq_false hfailed
    obtain ⟨s'', heq, hthen⟩ := failAttempt_stopped h.read hfailed hfinishes hcompensates
    exact ⟨s'', (if_neg hok).trans heq, hthen⟩
  · exact catchAttempt_ok h hfailed hcompensates _

variable (clock startedAt) in
theorem settleAttempt_thrown (h : s.Called (.executed stage.name before outcome) w s')
    (hfailed : outcome.succeeded = false) (hfinishes : Finishes stage attempt outcome)
    (hthrows : ¬ Compensates stage w) :
    Recalled stage s before outcome (settleAttempt clock stage attempt startedAt s' outcome) := by
  rcases outcome with ⟨error | result, aborted⟩ | _
  · exact catchAttempt_error h hthrows error
  · have hok : ¬ result.ok = true := ne_true_of_eq_false hfailed
    rw [settleAttempt, if_neg hok]
    exact failAttempt_thrown h.read hfailed hfinishes hthrows
  · exact catchAttempt_error h hthrows _

end Attempt

/-! ### The attempts of a stage -/

/-- How the loop over the attempts of a stage ends, when `n` attempts were tried again: the next
one succeeds, or it does not and the stage is compensated, or the compensation throws. -/
inductive Ended (stage : RepoMutationStageDefinition σ) (s : Run σ) (n : Nat) :
    AttemptEnd × Run σ → Prop
  | passed {s' : Run σ} (hsucceeded : (stage.outcomeAt s.world n).succeeded = true)
      (hthen : s.Then (stage.tries s.world (n + 1)) (stage.worldAfter (n + 1) s.world) s') :
      Ended stage s n (.passed, s')
  | stopped {s' : Run σ} (hfailed : (stage.outcomeAt s.world n).succeeded = false)
      (hcompensates : Compensates stage (stage.worldAfter (n + 1) s.world))
      (hthen : s.Then (stage.tries s.world (n + 1) ++ compensation stage)
        (compensatedWorld stage (stage.worldAfter (n + 1) s.world)) s') :
      Ended stage s n (.stopped, s')
  | rejected {s' : Run σ} {error : StageError} {results : List (Except StageError Unit)}
      (hfailed : (stage.outcomeAt s.world n).succeeded = false)
      (hthrows : ¬ Compensates stage (stage.worldAfter (n + 1) s.world))
      (hcalls : s'.calls = s.calls ++ (stage.tries s.world (n + 1) ++
        results.map (.compensated stage.name))) :
      Ended stage s n (.rejected error, s')
  | recalled {s' : Run σ} {results : List (Except StageError Unit)}
      (hfailed : (stage.outcomeAt s.world n).succeeded = false)
      (hthrows : ¬ Compensates stage (stage.worldAfter (n + 1) s.world))
      (hcalls : s'.calls = s.calls ++ (stage.tries s.world (n + 1) ++
        results.map (.compensated stage.name)))
      (htwice : results.length = 2) :
      Ended stage s n (.stopped, s')

/-- The last attempt, after `n` others. -/
theorem ended_attemptStage {s s' : Run σ} {n attempt : Nat}
    (hthen : s.Then (stage.tries s.world n) (stage.worldAfter n s.world) s')
    (hfinishes : Finishes stage attempt (stage.outcomeAt s.world n)) :
    Ended stage s n (attemptStage clock stage attempt s') := by
  have hworld : stage.execute s'.world = stage.execute (stage.worldAfter n s.world) := by
    rw [hthen.world_eq]
  have hcalled := called_execute stage s'
  rw [hthen.world_eq, ← stage.worldAfter_succ'] at hcalled
  unfold attemptStage
  rw [hworld]
  cases hsucceeded : (stage.outcomeAt s.world n).succeeded with
  | true =>
    obtain ⟨s'', heq, hlast⟩ := settleAttempt_passed clock (clock s'.readings) hcalled hsucceeded
    rw [heq]
    refine .passed hsucceeded ?_
    rw [stage.tries_succ']
    exact hthen.trans hlast
  | false =>
    by_cases hcompensates : Compensates stage (stage.worldAfter (n + 1) s.world)
    · obtain ⟨s'', heq, hlast⟩ :=
        settleAttempt_stopped clock (clock s'.readings) hcalled hsucceeded hfinishes hcompensates
      rw [heq]
      refine .stopped hsucceeded hcompensates ?_
      rw [stage.tries_succ', List.append_assoc]
      exact hthen.trans hlast
    · have hrecalled : Recalled stage s' (stage.worldAfter n s.world) (stage.outcomeAt s.world n) _ :=
        settleAttempt_thrown clock (clock s'.readings) hcalled hsucceeded hfinishes hcompensates
      change Ended stage s n (settleAttempt clock stage attempt (clock s'.readings)
        (s'.execute stage) (stage.outcomeAt s.world n))
      rcases hdone : settleAttempt clock stage attempt (clock s'.readings) (s'.execute stage)
        (stage.outcomeAt s.world n) with ⟨attemptEnd, s''⟩
      rw [hdone] at hrecalled
      obtain ⟨results, hcalls, hend⟩ := hrecalled
      have hall : s''.calls = s.calls ++ (stage.tries s.world (n + 1) ++
          results.map (.compensated stage.name)) := by
        change s''.calls = _ at hcalls
        rw [hcalls, hthen.calls_eq, stage.tries_succ']
        simp only [List.append_assoc, List.cons_append, List.nil_append]
      rcases hend with ⟨error, hrejected⟩ | ⟨hstopped, htwice⟩
      · have hend : attemptEnd = .rejected error := hrejected
        subst hend
        exact .rejected hsucceeded hcompensates hall
      · have hend : attemptEnd = .stopped := hstopped
        subst hend
        exact .recalled hsucceeded hcompensates hall htwice

theorem Ended.ne_retry {s : Run σ} {n : Nat} {done : AttemptEnd × Run σ}
    (h : Ended stage s n done) : done.1 ≠ .retry := by
  cases h <;> nofun

variable (clock) in
/-- An attempt that is tried again, after `n` others. -/
theorem attemptStage_retried {s s' : Run σ} {n attempt : Nat}
    (hthen : s.Then (stage.tries s.world n) (stage.worldAfter n s.world) s')
    (hretriable : (stage.outcomeAt s.world n).retriable = true)
    (hreached : stage.maxAttempts.reached attempt = false) :
    ∃ s'', attemptStage clock stage attempt s' = (.retry, s'') ∧
      s.Then (stage.tries s.world (n + 1)) (stage.worldAfter (n + 1) s.world) s'' := by
  have hworld : stage.execute s'.world = stage.execute (stage.worldAfter n s.world) := by
    rw [hthen.world_eq]
  have hcalled := called_execute stage s'
  rw [hthen.world_eq, ← stage.worldAfter_succ'] at hcalled
  obtain ⟨s'', heq, hlast⟩ :=
    settleAttempt_retried clock (clock s'.readings) hcalled hretriable hreached
  refine ⟨s'', ?_, ?_⟩
  · rw [attemptStage, hworld]
    exact heq
  · rw [stage.tries_succ']
    exact hthen.trans hlast

/-- **The loop over the attempts of a stage**, after `k` attempts that were tried again: no further
attempt, or attempts up to the first one after which the stage is not tried again. -/
theorem stageLoop_cases {fuel k : Nat} {s s' : Run σ} {done : AttemptEnd × Run σ}
    (hthen : s.Then (stage.tries s.world k) (stage.worldAfter k s.world) s')
    (hretries : stage.Retries s.world k) (h : stageLoop clock stage fuel k s' = some done) :
    (stage.maxAttempts.exceeds k = false ∧ done = (.passed, s')) ∨
      ∃ n, stage.maxAttempts.exceeds n = true ∧ stage.Retries s.world n ∧
        Finishes stage (n + 1) (stage.outcomeAt s.world n) ∧ Ended stage s n done := by
  induction fuel generalizing k s' with
  | zero =>
    unfold stageLoop at h
    split at h
    · cases h
    · rename_i hlimit
      exact .inl ⟨Bool.eq_false_iff.mpr hlimit, (Option.some.inj h).symm⟩
  | succ fuel ih =>
    unfold stageLoop at h
    split at h
    · rename_i hlimit
      right
      by_cases hfinishes : Finishes stage (k + 1) (stage.outcomeAt s.world k)
      · -- the last attempt
        have hended : Ended stage s k (attemptStage clock stage (k + 1) s') :=
          ended_attemptStage hthen hfinishes
        refine ⟨k, hlimit, hretries, hfinishes, ?_⟩
        dsimp only at h
        split at h
        · rename_i hretry
          have hne := hended.ne_retry
          rw [hretry] at hne
          exact absurd rfl hne
        · rw [← Option.some.inj h]
          exact hended
      · unfold Finishes at hfinishes
        push Not at hfinishes
        have hretriable := Bool.eq_true_of_not_eq_false hfinishes.1
        have hreached := Bool.eq_false_of_not_eq_true hfinishes.2
        obtain ⟨s'', heq, hnext⟩ :=
          attemptStage_retried clock hthen hretriable hreached
        have hmore : stage.Retries s.world (k + 1) := by
          intro i hi
          rcases Nat.lt_succ_iff_lt_or_eq.mp hi with hlt | rfl
          · exact hretries i hlt
          · exact hretriable
        simp only [heq] at h
        rcases ih hnext hmore h with ⟨hlimit', -⟩ | hend
        · have hexceeds := Number.exceeds_of_reached_eq_false hlimit hreached
          rw [hexceeds] at hlimit'
          cases hlimit'
        · exact hend
    · rename_i hlimit
      exact .inl ⟨Bool.eq_false_iff.mpr hlimit, (Option.some.inj h).symm⟩

variable (clock) in
/-- The loop ends where some attempt ends it. -/
theorem stageLoop_of_finishes {fuel k n : Nat} {s s' : Run σ}
    (hthen : s.Then (stage.tries s.world k) (stage.worldAfter k s.world) s')
    (hkn : k ≤ n) (hfuel : n < k + fuel) (hexceeds : stage.maxAttempts.exceeds n = true)
    (hretries : stage.Retries s.world n)
    (hfinishes : Finishes stage (n + 1) (stage.outcomeAt s.world n)) :
    ∃ done, stageLoop clock stage fuel k s' = some done := by
  induction fuel generalizing k s' with
  | zero => omega
  | succ fuel ih =>
    unfold stageLoop
    rw [if_pos (Number.exceeds_of_le hexceeds hkn)]
    rcases Nat.eq_or_lt_of_le hkn with rfl | hlt
    · have hended : Ended stage s k (attemptStage clock stage (k + 1) s') :=
        ended_attemptStage hthen hfinishes
      have hne := hended.ne_retry
      dsimp only
      split
      · rename_i hretry
        rw [hretry] at hne
        exact absurd rfl hne
      · exact ⟨_, rfl⟩
    · have hreached : stage.maxAttempts.reached (k + 1) = false :=
        Number.reached_eq_false (Number.exceeds_of_le hexceeds hlt)
      obtain ⟨s'', heq, hnext⟩ :=
        attemptStage_retried clock hthen (hretries k hlt) hreached
      simp only [heq]
      exact ih hnext hlt (by omega)

/-- The attempt after `n` others is the last one of the stage: the code makes it, and does not try
the stage again after it. -/
structure LastAttempt (stage : RepoMutationStageDefinition σ) (w : σ) (n : Nat) : Prop where
  exceeds : stage.maxAttempts.exceeds n = true
  retries : stage.Retries w n
  finishes : Finishes stage (n + 1) (stage.outcomeAt w n)

/-- The attempt after which a stage is not tried again is the only one. -/
theorem LastAttempt.unique {stage : RepoMutationStageDefinition σ} {w : σ} {m n : Nat}
    (hm : LastAttempt stage w m) (hn : LastAttempt stage w n) : m = n := by
  have hle {a b : Nat} (ha : LastAttempt stage w a) (hb : LastAttempt stage w b) : ¬ a < b := by
    intro hab
    rcases ha.finishes with hfinal | hreached
    · rw [hb.retries a hab] at hfinal
      cases hfinal
    · rw [Number.reached_eq_false (Number.exceeds_of_le hb.exceeds hab)] at hreached
      cases hreached
  exact Nat.le_antisymm (not_lt.mp (hle hn hm)) (not_lt.mp (hle hm hn))

variable (clock) in
/-- With enough fuel the loop over the attempts of a stage that has a last one ends with it. -/
theorem stageLoop_of_lastAttempt {s : Run σ} {fuel n : Nat}
    (hlast : LastAttempt stage s.world n) (hfuel : n < fuel) :
    ∃ done, stageLoop clock stage fuel 0 s = some done ∧ Ended stage s n done := by
  have hstart : stage.Retries s.world 0 := fun k hk => absurd hk k.not_lt_zero
  have hbound : n < 0 + fuel := by omega
  obtain ⟨done, hdone⟩ := stageLoop_of_finishes clock (.refl s) n.zero_le hbound
    hlast.exceeds hlast.retries hlast.finishes
  refine ⟨done, hdone, ?_⟩
  rcases stageLoop_cases (.refl s) hstart hdone with
    ⟨hlimit, -⟩ | ⟨m, hexceeds, hretries, hfinishes, hended⟩
  · rw [Number.exceeds_of_le hlast.exceeds n.zero_le] at hlimit
    cases hlimit
  · have hm : LastAttempt stage s.world m := ⟨hexceeds, hretries, hfinishes⟩
    rw [hlast.unique hm]
    exact hended

/-! ### The stages of a run -/

/-- The run has stopped at the stage. -/
def StoppedAt (stage : RepoMutationStageDefinition σ)
    (answer : Except StageError RepoMutationPipelineResult) : Prop :=
  ∃ result, answer = .ok result ∧ result.ok = false ∧ result.stoppedAt = some stage.name

theorem StoppedAt.of_ok {result : RepoMutationPipelineResult} (h : StoppedAt stage (.ok result)) :
    result.ok = false ∧ result.stoppedAt = some stage.name := by
  obtain ⟨result', heq, hstopped⟩ := h
  cases heq
  exact hstopped

/-- What the first stage of a run does: it is skipped, it succeeds and the rest runs, or the run
ends there, with a compensation that does not throw, or with one that does and that is called
twice if the run does not reject. -/
inductive FirstStage (clock : Nat → Int) (fuel : Nat) (stage : RepoMutationStageDefinition σ)
    (rest : List (RepoMutationStageDefinition σ)) (s : Run σ)
    (answer : Except StageError RepoMutationPipelineResult) (s' : Run σ) : Prop
  | skipped (hlimit : stage.maxAttempts.exceeds 0 = false)
      (hrest : runStages clock fuel rest s = some (answer, s'))
  | passed {n : Nat} {s₁ : Run σ} (hlast : LastAttempt stage s.world n)
      (hsucceeded : (stage.outcomeAt s.world n).succeeded = true)
      (hthen : s.Then (stage.tries s.world (n + 1)) (stage.worldAfter (n + 1) s.world) s₁)
      (hrest : runStages clock fuel rest s₁ = some (answer, s'))
  | stopped {n : Nat} (hlast : LastAttempt stage s.world n)
      (hfailed : (stage.outcomeAt s.world n).succeeded = false)
      (hcompensates : Compensates stage (stage.worldAfter (n + 1) s.world))
      (hcalls : s'.calls = s.calls ++ (stage.tries s.world (n + 1) ++ compensation stage))
      (hstopped : StoppedAt stage answer)
  | thrown {n : Nat} {results : List (Except StageError Unit)} (hlast : LastAttempt stage s.world n)
      (hfailed : (stage.outcomeAt s.world n).succeeded = false)
      (hthrows : ¬ Compensates stage (stage.worldAfter (n + 1) s.world))
      (hcalls : s'.calls = s.calls ++ (stage.tries s.world (n + 1) ++
        results.map (.compensated stage.name)))
      (hend : (∃ error, answer = .error error) ∨ (StoppedAt stage answer ∧ results.length = 2))

theorem isSome_of_not_compensates {stage : RepoMutationStageDefinition σ} {w : σ}
    (h : ¬ Compensates stage w) : stage.compensate.isSome = true := by
  unfold Compensates at h
  push Not at h
  obtain ⟨compensate, hcompensate, -⟩ := h
  rw [hcompensate]
  rfl

theorem firstStage_of_runStages {stages : List (RepoMutationStageDefinition σ)} {fuel : Nat}
    {s s' : Run σ} {answer : Except StageError RepoMutationPipelineResult}
    (h : runStages clock fuel (stage :: stages) s = some (answer, s')) :
    FirstStage clock fuel stage stages s answer s' := by
  rw [runStages] at h
  cases hloop : stageLoop clock stage fuel 0 s with
  | none =>
    rw [hloop] at h
    cases h
  | some done =>
    rw [hloop] at h
    rcases stageLoop_cases (.refl s) (fun k hk => absurd hk k.not_lt_zero) hloop with
      ⟨hlimit, rfl⟩ | ⟨n, hexceeds, hretries, hfinishes, hended⟩
    · exact .skipped hlimit h
    · have hlast : LastAttempt stage s.world n := ⟨hexceeds, hretries, hfinishes⟩
      cases hended with
      | passed hsucceeded hthen => exact .passed hlast hsucceeded hthen h
      | stopped hfailed hcompensates hthen =>
        cases h
        exact .stopped hlast hfailed hcompensates hthen.calls_eq ⟨_, rfl, rfl, rfl⟩
      | @rejected _ error _ hfailed hthrows hcalls =>
        cases h
        exact .thrown hlast hfailed hthrows hcalls (.inl ⟨error, rfl⟩)
      | recalled hfailed hthrows hcalls htwice =>
        cases h
        exact .thrown hlast hfailed hthrows hcalls (.inr ⟨⟨_, rfl, rfl, rfl⟩, htwice⟩)

/-! ### The order of the stages -/

theorem mem_orderedStages {stages : List (RepoMutationStageDefinition σ)} :
    stage ∈ orderedStages stages ↔ stage ∈ stages :=
  List.mem_mergeSort

theorem sorted_orderedStages (stages : List (RepoMutationStageDefinition σ)) :
    (orderedStages stages).Pairwise fun a b => a.name.index ≤ b.name.index := by
  have hsorted : (orderedStages stages).Pairwise fun a b =>
      decide (a.name.index ≤ b.name.index) = true := List.pairwise_mergeSort
    (fun a b c hab hbc => decide_eq_true ((of_decide_eq_true hab).trans (of_decide_eq_true hbc)))
    (fun a b => by
      rcases le_total a.name.index b.name.index with hab | hba
      · rw [decide_eq_true hab, Bool.true_or]
      · rw [decide_eq_true hba, Bool.or_true]) stages
  exact hsorted.imp of_decide_eq_true

/-- Stages that are given in any order are put in the one order of their names. -/
theorem orderedStages_of_perm {stages sorted : List (RepoMutationStageDefinition σ)}
    (hperm : stages.Perm sorted)
    (hsorted : sorted.Pairwise fun a b => a.name.index < b.name.index) :
    orderedStages stages = sorted := by
  have hnames : (sorted.map fun stage => stage.name.index).Nodup :=
    List.pairwise_map.mpr (hsorted.imp ne_of_lt)
  refine List.Perm.eq_of_pairwise (fun a b ha hb hab hba => ?_) (sorted_orderedStages stages)
    (hsorted.imp le_of_lt) ((List.mergeSort_perm stages _).trans hperm)
  have ha' : a ∈ sorted := hperm.mem_iff.mp (mem_orderedStages.mp ha)
  exact List.inj_on_of_nodup_map hnames ha' hb (le_antisymm hab hba)

end RepoMutationPipeline

end AiOrchestrator
